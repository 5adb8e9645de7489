import TbsMedia.Lib.BitFields
import TbsMedia.Lib.Cells
import Mathlib

/-!
# The cookies of the planes

Every plane of an MMAP buffer gets an offset that user space hands to `mmap` to have the plane mapped.

* `setupOffsets`: `__setup_offsets`, which goes on behind the last plane of the buffer before.
* `vb2CoreReqbufs`, `vb2CoreCreateBufs`: the calls that fill a queue.
* `findPlaneByOffset`: `__find_plane_by_offset`, which finds the plane again.
* `CookiesIdentify`: the cookies tell the planes apart.
* `cookiesIdentify_iff`: they do in every queue whose planes fit into 4 GiB, and none of whose planes before the last
  is empty; and in no other one.
-/

namespace TbsMedia
namespace Vb2

open Lib

abbrev VB2_MAX_FRAME : ℕ := 32
abbrev VB2_MAX_PLANES : ℕ := 8
abbrev PAGE_SIZE : ℕ := 4096

/-! ## Buffers -/

/-- `PAGE_ALIGN` of an `unsigned int`. -/
def pageAlign32 (x : UInt32) : UInt32 := (x + 4095) &&& ~~~4095

/-- `PAGE_ALIGN` of an `unsigned long`. -/
def pageAlign64 (x : UInt64) : UInt64 := (x + 4095) &&& ~~~4095

/-- A plane, with `m.offset`. -/
structure Vb2Plane where
  length : UInt32
  offset : UInt32
deriving DecidableEq

/-- The planes of a buffer. -/
structure MmapBuffer where
  planes : List Vb2Plane
  planes_ne : planes ≠ []

/-- The number of planes and their sizes, as `queue_setup` of the driver gives them. -/
structure PlaneSizes where
  sizes : List UInt32
  sizes_ne : sizes ≠ []
  length_le : sizes.length ≤ VB2_MAX_PLANES

/-- The buffers of a queue. -/
structure MmapQueue where
  bufs : List MmapBuffer

/-- The loop of `__setup_offsets`. -/
def assignOffsets : UInt64 → List UInt32 → List Vb2Plane
  | _, [] => []
  | off, length :: rest => ⟨length, off.toUInt32⟩ :: assignOffsets (pageAlign64 (off + length.toUInt64)) rest

theorem assignOffsets_ne {off : UInt64} {sizes : List UInt32} (h : sizes ≠ []) : assignOffsets off sizes ≠ [] := by
  cases sizes with
  | nil => exact absurd rfl h
  | cons _ _ => exact List.cons_ne_nil _ _

/-- Where the planes of a buffer begin: at 0, or behind the last plane of the buffer before. -/
def firstOffset : Option MmapBuffer → UInt64
  | none => 0
  | some prev =>
    let p := prev.planes.getLast prev.planes_ne
    (pageAlign32 (p.offset + p.length)).toUInt64

/-- `__setup_offsets`. -/
def setupOffsets (prev : Option MmapBuffer) (sizes : PlaneSizes) : MmapBuffer where
  planes := assignOffsets (firstOffset prev) sizes.sizes
  planes_ne := assignOffsets_ne sizes.sizes_ne

/-- `__vb2_buf_mem_alloc`, but for the allocator itself: no page-aligned size wraps around. -/
def bufMemAlloc (sizes : PlaneSizes) : Bool :=
  sizes.sizes.all fun length => ¬ pageAlign32 length < length

/-- `__vb2_queue_alloc`: so many buffers are asked for, and for so many of them the allocator and the driver do
their part. -/
def queueAlloc (sizes : PlaneSizes) : ℕ → ℕ → List MmapBuffer → List MmapBuffer
  | 0, _, bufs => bufs
  | _, 0, bufs => bufs
  | n + 1, granted + 1, bufs =>
    if bufMemAlloc sizes then queueAlloc sizes n granted (bufs ++ [setupOffsets bufs.getLast? sizes])
    else bufs

/-! ## Calls -/

/-- What is asked for, and what the driver and the allocator answer. -/
structure Call where
  count : ℕ
  minBuffersNeeded : ℕ
  /-- The number of buffers after `queue_setup`. -/
  numBuffers : ℕ
  sizes : PlaneSizes
  /-- The number of buffers that can be allocated. -/
  granted : ℕ
  /-- The driver takes fewer buffers than it asked for. -/
  acceptsFewer : Bool

/-- `vb2_core_reqbufs`. -/
def vb2CoreReqbufs (c : Call) : MmapQueue :=
  if c.count = 0 then ⟨[]⟩
  else if c.sizes.sizes.any (fun size => size = 0) then ⟨[]⟩
  else
    let bufs := queueAlloc c.sizes (min c.numBuffers VB2_MAX_FRAME) c.granted []
    if bufs.length < c.minBuffersNeeded then ⟨[]⟩
    else if bufs.length < c.numBuffers ∧ c.acceptsFewer = false then ⟨[]⟩
    else ⟨bufs⟩

/-- `vb2_core_create_bufs`. -/
def vb2CoreCreateBufs (q : MmapQueue) (c : Call) : MmapQueue :=
  if q.bufs.length = VB2_MAX_FRAME then q
  else
    let bufs := queueAlloc c.sizes (min c.numBuffers (VB2_MAX_FRAME - q.bufs.length)) c.granted q.bufs
    if bufs.length - q.bufs.length < c.numBuffers ∧ c.acceptsFewer = false then q
    else ⟨bufs⟩

/-- The calls that fill a queue. -/
inductive QueueCall where
  | reqbufs (c : Call)
  | createBufs (c : Call)

def queueStep (q : MmapQueue) : QueueCall → MmapQueue
  | .reqbufs c => vb2CoreReqbufs c
  | .createBufs c => vb2CoreCreateBufs q c

/-- The queue after the calls. -/
def queueRun (calls : List QueueCall) : MmapQueue :=
  calls.foldl queueStep ⟨[]⟩

/-! ## Finding a plane -/

/-- The inner loop of `__find_plane_by_offset`. -/
def findPlane (off : UInt64) : List Vb2Plane → ℕ → Option ℕ
  | [], _ => none
  | p :: rest, plane => if p.offset.toUInt64 = off then some plane else findPlane off rest (plane + 1)

/-- `__find_plane_by_offset`, from a buffer on. -/
def findPlaneByOffset (off : UInt64) : List MmapBuffer → ℕ → Option (ℕ × ℕ)
  | [], _ => none
  | vb :: rest, buffer =>
    match findPlane off vb.planes 0 with
    | some plane => some (buffer, plane)
    | none => findPlaneByOffset off rest (buffer + 1)

/-- A plane of a buffer of the queue. -/
def MmapQueue.plane (q : MmapQueue) (buffer plane : ℕ) : Option Vb2Plane :=
  q.bufs[buffer]?.bind fun vb => vb.planes[plane]?

/-! ## What the cookies are to do -/

/-- A length, rounded up to pages. -/
def pages (length : UInt32) : ℕ :=
  (length.toNat + (PAGE_SIZE - 1)) / PAGE_SIZE * PAGE_SIZE

/-- The cookies of a plane. -/
def Vb2Plane.cookies (p : Vb2Plane) : Set ℕ :=
  cell (2 ^ 32) p.offset.toNat (pages p.length)

/-- The offsets are page aligned, different planes have no cookie in common, and a plane is found by its offset. -/
def CookiesIdentify (q : MmapQueue) : Prop :=
  (∀ b p pl, q.plane b p = some pl → PAGE_SIZE ∣ pl.offset.toNat) ∧
    (∀ b p pl b' p' pl', q.plane b p = some pl → q.plane b' p' = some pl' → (b, p) ≠ (b', p') →
      Disjoint pl.cookies pl'.cookies) ∧
    ∀ b p pl, q.plane b p = some pl → findPlaneByOffset pl.offset.toUInt64 q.bufs 0 = some (b, p)

/-- The lengths of all planes of the queue, in their order. -/
def MmapQueue.lengths (q : MmapQueue) : List UInt32 :=
  (q.bufs.flatMap MmapBuffer.planes).map Vb2Plane.length

/-! ## Offsets -/

theorem toNat_pageAlign32 (x : UInt32) :
    (pageAlign32 x).toNat = (x.toNat + (PAGE_SIZE - 1)) % 2 ^ 32 / PAGE_SIZE * PAGE_SIZE := by
  rw [pageAlign32, UInt32.toNat_and, UInt32.toNat_add]
  show (x.toNat + 4095) % 2 ^ 32 &&& 4294963200 = (x.toNat + 4095) % 2 ^ 32 / 4096 * 4096
  rw [land_eq_shiftLeft (show 4294963200 = (2 ^ 20 - 1) <<< 12 by decide), Nat.shiftLeft_eq]
  omega

theorem toNat_pageAlign64 (x : UInt64) :
    (pageAlign64 x).toNat = (x.toNat + (PAGE_SIZE - 1)) % 2 ^ 64 / PAGE_SIZE * PAGE_SIZE := by
  rw [pageAlign64, UInt64.toNat_and, UInt64.toNat_add]
  show (x.toNat + 4095) % 2 ^ 64 &&& 18446744073709547520 = (x.toNat + 4095) % 2 ^ 64 / 4096 * 4096
  rw [land_eq_shiftLeft (show 18446744073709547520 = (2 ^ 52 - 1) <<< 12 by decide), Nat.shiftLeft_eq]
  omega

/-- The planes lie in a row that starts at `s`. -/
def Laid : ℕ → List Vb2Plane → Prop
  | _, [] => True
  | s, p :: rest => p.offset.toNat = s % 2 ^ 32 ∧ Laid (s + pages p.length) rest

/-- The pages of all planes. -/
def pagesOf (planes : List Vb2Plane) : ℕ :=
  (planes.map fun p => pages p.length).sum

theorem laid_append {s : ℕ} {ps qs : List Vb2Plane} :
    Laid s (ps ++ qs) ↔ Laid s ps ∧ Laid (s + pagesOf ps) qs := by
  induction ps generalizing s with
  | nil =>
    rw [List.nil_append, pagesOf, List.map_nil, List.sum_nil, Nat.add_zero]
    exact (iff_of_eq (true_and _)).symm
  | cons p ps ih =>
    rw [List.cons_append, Laid, Laid, ih, and_assoc, pagesOf, pagesOf, List.map_cons, List.sum_cons, Nat.add_assoc]

theorem pagesOf_append (ps qs : List Vb2Plane) : pagesOf (ps ++ qs) = pagesOf ps + pagesOf qs := by
  rw [pagesOf, pagesOf, pagesOf, List.map_append, List.sum_append]

theorem pagesOf_singleton (p : Vb2Plane) : pagesOf [p] = pages p.length := by
  rw [pagesOf, List.map_singleton, List.sum_singleton]

theorem pages_dvd (length : UInt32) : PAGE_SIZE ∣ pages length :=
  Nat.dvd_mul_left _ _

theorem pagesOf_dvd (planes : List Vb2Plane) : PAGE_SIZE ∣ pagesOf planes := by
  refine List.dvd_sum fun n hn => ?_
  obtain ⟨p, _, rfl⟩ := List.mem_map.mp hn
  exact pages_dvd p.length

/-- The loop of `__setup_offsets` lays the planes in a row. -/
theorem laid_assignOffsets {off : UInt64} {s : ℕ} (hoff : off.toNat % 2 ^ 32 = s % 2 ^ 32) (hs : PAGE_SIZE ∣ s)
    (sizes : List UInt32) : Laid s (assignOffsets off sizes) := by
  induction sizes generalizing off s with
  | nil => exact trivial
  | cons length rest ih =>
    have hnext : (pageAlign64 (off + length.toUInt64)).toNat % 2 ^ 32 = (s + pages length) % 2 ^ 32 := by
      rw [toNat_pageAlign64, UInt64.toNat_add, UInt32.toNat_toUInt64]
      show ((off.toNat + length.toNat) % 2 ^ 64 + 4095) % 2 ^ 64 / 4096 * 4096 % 2 ^ 32 =
        (s + (length.toNat + 4095) / 4096 * 4096) % 2 ^ 32
      obtain ⟨k, rfl⟩ : ∃ k, s = 4096 * k := hs
      omega
    refine ⟨?_, ih hnext (Nat.dvd_add hs (pages_dvd length))⟩
    rw [UInt64.toNat_toUInt32]
    exact hoff

/-- The planes of a buffer go on behind those of the buffers before. -/
theorem firstOffset_mod {bufs : List MmapBuffer} (h : Laid 0 (bufs.flatMap MmapBuffer.planes)) :
    (firstOffset bufs.getLast?).toNat % 2 ^ 32 = pagesOf (bufs.flatMap MmapBuffer.planes) % 2 ^ 32 := by
  rcases List.eq_nil_or_concat bufs with rfl | ⟨front, prev, rfl⟩
  · rfl
  · rw [List.concat_eq_append] at h ⊢
    rw [List.flatMap_append, List.flatMap_singleton] at h ⊢
    rw [List.getLast?_concat, firstOffset]
    generalize hlast : prev.planes.getLast prev.planes_ne = p
    have hplanes : prev.planes = prev.planes.dropLast ++ [p] := by
      rw [← hlast, List.dropLast_append_getLast]
    rw [hplanes, ← List.append_assoc, laid_append] at h
    obtain ⟨-, hoffset, -⟩ := h
    rw [hplanes, ← List.append_assoc, pagesOf_append, UInt32.toNat_toUInt64, toNat_pageAlign32, UInt32.toNat_add]
    rw [pagesOf_singleton, hoffset, Nat.zero_add]
    obtain ⟨k, hk⟩ := pagesOf_dvd (front.flatMap MmapBuffer.planes ++ prev.planes.dropLast)
    rw [hk]
    show ((4096 * k % 2 ^ 32 + p.length.toNat) % 2 ^ 32 + 4095) % 2 ^ 32 / 4096 * 4096 % 2 ^ 32 =
      (4096 * k + (p.length.toNat + 4095) / 4096 * 4096) % 2 ^ 32
    omega

theorem pages_le (length : UInt32) : pages length ≤ 2 ^ 32 := by
  have hlt := length.toNat_lt
  show (length.toNat + 4095) / 4096 * 4096 ≤ 2 ^ 32
  omega

/-- The planes of the queue lie in a row that starts at 0. -/
def InRow (bufs : List MmapBuffer) : Prop :=
  Laid 0 (bufs.flatMap MmapBuffer.planes)

theorem inRow_nil : InRow [] := trivial

/-- A new buffer is put behind the row. -/
theorem inRow_setupOffsets {bufs : List MmapBuffer} (h : InRow bufs) (sizes : PlaneSizes) :
    InRow (bufs ++ [setupOffsets bufs.getLast? sizes]) := by
  rw [InRow, List.flatMap_append, List.flatMap_singleton, laid_append, Nat.zero_add]
  exact ⟨h, laid_assignOffsets (firstOffset_mod h) (pagesOf_dvd _) sizes.sizes⟩

theorem inRow_queueAlloc {bufs : List MmapBuffer} (h : InRow bufs) (sizes : PlaneSizes) (n granted : ℕ) :
    InRow (queueAlloc sizes n granted bufs) := by
  induction n generalizing granted bufs with
  | zero => exact h
  | succ n ih =>
    cases granted with
    | zero => exact h
    | succ granted =>
      rw [queueAlloc]
      split_ifs
      · exact ih (inRow_setupOffsets h sizes) granted
      · exact h

/-- Every call keeps the planes in a row. -/
theorem inRow_step {q : MmapQueue} (h : InRow q.bufs) (c : QueueCall) : InRow (queueStep q c).bufs := by
  rcases c with c | c
  · show InRow (vb2CoreReqbufs c).bufs
    unfold vb2CoreReqbufs
    split_ifs
    · exact inRow_nil
    · exact inRow_nil
    · dsimp only
      split_ifs
      · exact inRow_nil
      · exact inRow_nil
      · exact inRow_queueAlloc inRow_nil _ _ _
  · show InRow (vb2CoreCreateBufs q c).bufs
    unfold vb2CoreCreateBufs
    split_ifs
    · exact h
    · dsimp only
      split_ifs
      · exact h
      · exact inRow_queueAlloc h _ _ _

/-- The planes lie in a row after any calls. -/
theorem inRow_run (calls : List QueueCall) : InRow (queueRun calls).bufs :=
  List.foldlRecOn (motive := fun q => InRow q.bufs) calls queueStep inRow_nil fun _ h c _ => inRow_step h c

/-! ## The planes in their order -/

/-- The planes of a buffer with their numbers. -/
def entriesOf (buffer : ℕ) : List Vb2Plane → ℕ → List ((ℕ × ℕ) × Vb2Plane)
  | [], _ => []
  | p :: rest, plane => ((buffer, plane), p) :: entriesOf buffer rest (plane + 1)

/-- The planes with the numbers of buffer and plane, from a buffer on. -/
def entries : List MmapBuffer → ℕ → List ((ℕ × ℕ) × Vb2Plane)
  | [], _ => []
  | vb :: rest, buffer => entriesOf buffer vb.planes 0 ++ entries rest (buffer + 1)

theorem map_entriesOf (buffer plane : ℕ) (planes : List Vb2Plane) :
    (entriesOf buffer planes plane).map Prod.snd = planes := by
  induction planes generalizing plane with
  | nil => rfl
  | cons p rest ih => exact congrArg (p :: ·) (ih _)

theorem map_entries (bufs : List MmapBuffer) (buffer : ℕ) :
    (entries bufs buffer).map Prod.snd = bufs.flatMap MmapBuffer.planes := by
  induction bufs generalizing buffer with
  | nil => rfl
  | cons vb rest ih => rw [entries, List.map_append, map_entriesOf, ih, List.flatMap_cons]

theorem mem_entriesOf {buffer plane : ℕ} {planes : List Vb2Plane} {b p : ℕ} {pl : Vb2Plane} :
    ((b, p), pl) ∈ entriesOf buffer planes plane ↔ b = buffer ∧ plane ≤ p ∧ planes[p - plane]? = some pl := by
  induction planes generalizing plane with
  | nil => simp [entriesOf]
  | cons q rest ih =>
    rw [entriesOf, List.mem_cons, ih]
    constructor
    · rintro (heq | ⟨hb, hp, hget⟩)
      · obtain ⟨hkey, rfl⟩ := Prod.mk.inj heq
        obtain ⟨rfl, rfl⟩ := Prod.mk.inj hkey
        exact ⟨rfl, Nat.le_refl _, by rw [Nat.sub_self]; rfl⟩
      · refine ⟨hb, by omega, ?_⟩
        rw [show p - plane = p - (plane + 1) + 1 by omega]
        exact hget
    · rintro ⟨rfl, hp, hget⟩
      rcases Nat.eq_or_lt_of_le hp with rfl | hlt
      · rw [Nat.sub_self] at hget
        exact Or.inl (Prod.ext rfl (Option.some.inj hget).symm)
      · rw [show p - plane = p - (plane + 1) + 1 by omega] at hget
        exact Or.inr ⟨rfl, hlt, hget⟩

theorem mem_entries {bufs : List MmapBuffer} {buffer b p : ℕ} {pl : Vb2Plane} :
    ((b, p), pl) ∈ entries bufs buffer ↔
      buffer ≤ b ∧ (bufs[b - buffer]?.bind fun vb => vb.planes[p]?) = some pl := by
  induction bufs generalizing buffer with
  | nil => simp [entries]
  | cons vb rest ih =>
    rw [entries, List.mem_append, mem_entriesOf, ih, Nat.sub_zero]
    constructor
    · rintro (⟨rfl, -, hget⟩ | ⟨hb, hget⟩)
      · exact ⟨Nat.le_refl _, by rw [Nat.sub_self]; exact hget⟩
      · refine ⟨by omega, ?_⟩
        rw [show b - buffer = b - (buffer + 1) + 1 by omega]
        exact hget
    · rintro ⟨hb, hget⟩
      rcases Nat.eq_or_lt_of_le hb with rfl | hlt
      · rw [Nat.sub_self] at hget
        exact Or.inl ⟨rfl, Nat.zero_le _, hget⟩
      · rw [show b - buffer = b - (buffer + 1) + 1 by omega] at hget
        exact Or.inr ⟨hlt, hget⟩

/-- No two planes have the same numbers. -/
theorem nodup_keys {buffer : ℕ} (bufs : List MmapBuffer) : ((entries bufs buffer).map Prod.fst).Nodup := by
  have hplanes : ∀ b (planes : List Vb2Plane) plane, ((entriesOf b planes plane).map Prod.fst).Nodup := by
    intro b planes
    induction planes with
    | nil => exact fun _ => List.nodup_nil
    | cons p rest ih =>
      intro plane
      rw [entriesOf, List.map_cons, List.nodup_cons]
      refine ⟨fun hmem => ?_, ih (plane + 1)⟩
      obtain ⟨⟨⟨b', p'⟩, pl⟩, hin, hkey⟩ := List.mem_map.mp hmem
      obtain ⟨rfl, rfl⟩ := Prod.mk.inj hkey
      exact absurd (mem_entriesOf.mp hin).2.1 (Nat.not_succ_le_self _)
  induction bufs generalizing buffer with
  | nil => exact List.nodup_nil
  | cons vb rest ih =>
    rw [entries, List.map_append, List.nodup_append]
    refine ⟨hplanes buffer vb.planes 0, ih, ?_⟩
    intro key hkey key' hkey' heq
    subst heq
    obtain ⟨⟨⟨b, p⟩, pl⟩, hin, rfl⟩ := List.mem_map.mp hkey
    obtain ⟨⟨⟨b', p'⟩, pl'⟩, hin', heq⟩ := List.mem_map.mp hkey'
    obtain ⟨rfl, rfl⟩ := Prod.mk.inj heq
    have hb := (mem_entriesOf.mp hin).1
    have hb' := (mem_entries.mp hin').1
    omega

/-- The loops of `__find_plane_by_offset` find the first plane with the offset. -/
theorem findPlaneByOffset_eq (off : UInt64) (bufs : List MmapBuffer) (buffer : ℕ) :
    findPlaneByOffset off bufs buffer =
      ((entries bufs buffer).find? fun e => e.2.offset.toUInt64 = off).map Prod.fst := by
  have hplanes : ∀ b (planes : List Vb2Plane) plane, (findPlane off planes plane).map (b, ·) =
      ((entriesOf b planes plane).find? fun e => e.2.offset.toUInt64 = off).map Prod.fst := by
    intro b planes
    induction planes with
    | nil => exact fun _ => rfl
    | cons p rest ih =>
      intro plane
      rw [findPlane, entriesOf, List.find?_cons]
      by_cases hp : p.offset.toUInt64 = off
      · rw [if_pos hp, decide_eq_true hp]
        rfl
      · rw [if_neg hp, decide_eq_false hp]
        exact ih (plane + 1)
  induction bufs generalizing buffer with
  | nil => rfl
  | cons vb rest ih =>
    rw [findPlaneByOffset, entries, List.find?_append, Option.map_or, ← hplanes]
    cases findPlane off vb.planes 0 with
    | none => exact ih (buffer + 1)
    | some plane => rfl

/-! ## The cookies -/

/-- The cell of a plane. -/
def Vb2Plane.cell (p : Vb2Plane) : ℕ × ℕ :=
  (p.offset.toNat, pages p.length)

theorem laid_get {s : ℕ} {planes : List Vb2Plane} (h : Laid s planes) (k : ℕ) (hk : k < planes.length) :
    planes[k].offset.toNat = (s + startOf (planes.map fun p => pages p.length) k) % 2 ^ 32 := by
  induction planes generalizing s k with
  | nil => exact absurd hk (Nat.not_lt_zero k)
  | cons p rest ih =>
    cases k with
    | zero => exact h.1
    | succ k =>
      rw [startOf, List.map_cons, List.take_succ_cons, List.sum_cons, ← Nat.add_assoc]
      exact ih h.2 k (Nat.lt_of_succ_lt_succ hk)

theorem dvd_offset {planes : List Vb2Plane} (h : Laid 0 planes) {p : Vb2Plane} (hp : p ∈ planes) :
    PAGE_SIZE ∣ p.offset.toNat := by
  obtain ⟨k, hk, rfl⟩ := List.getElem_of_mem hp
  rw [laid_get h k hk, Nat.zero_add]
  have hstart : PAGE_SIZE ∣ startOf (planes.map fun p => pages p.length) k := by
    refine List.dvd_sum fun n hn => ?_
    obtain ⟨q, _, rfl⟩ := List.mem_map.mp (List.mem_of_mem_take hn)
    exact pages_dvd q.length
  exact (Nat.dvd_mod_iff (by decide)).mpr hstart

/-- In a row, planes are apart exactly if the row fits. -/
theorem pairwise_apart_iff {planes : List Vb2Plane} (h : Laid 0 planes) :
    planes.Pairwise (fun p p' => Apart (2 ^ 32) p.cell p'.cell) ↔
      Fits (2 ^ 32) (planes.map fun p => pages p.length) := by
  have hlens : ∀ l ∈ planes.map fun p => pages p.length, l ≤ 2 ^ 32 := by
    intro l hl
    obtain ⟨p, _, rfl⟩ := List.mem_map.mp hl
    exact pages_le p.length
  have hcell : ∀ j k (hj : j < planes.length) (hk : k < planes.length),
      Apart (2 ^ 32) planes[j].cell planes[k].cell ↔
        Apart (2 ^ 32) (startOf (planes.map fun p => pages p.length) j, pages planes[j].length)
          (startOf (planes.map fun p => pages p.length) k, pages planes[k].length) := by
    intro j k hj hk
    rw [Vb2Plane.cell, Vb2Plane.cell, laid_get h j hj, laid_get h k hk, Nat.zero_add, Nat.zero_add]
    exact apart_mod (c := (_, _)) (d := (_, _))
  rw [← apart_iff_fits (by decide) hlens, List.pairwise_iff_getElem]
  constructor
  · intro hpair j k hjk hj hk
    rw [List.length_map] at hj hk
    have hjk' := (hcell j k hj hk).mp (hpair j k hj hk hjk)
    rw [List.get_eq_getElem, List.get_eq_getElem, List.getElem_map, List.getElem_map]
    exact hjk'
  · intro hapart j k hj hk hjk
    have hjk' := hapart j k hjk (by rw [List.length_map]; exact hj) (by rw [List.length_map]; exact hk)
    rw [List.get_eq_getElem, List.get_eq_getElem, List.getElem_map, List.getElem_map] at hjk'
    exact (hcell j k hj hk).mpr hjk'

/-- The cookies identify the planes exactly if no two planes share one or start at the same one. -/
theorem cookiesIdentify_iff_pairwise {q : MmapQueue} (h : InRow q.bufs) :
    CookiesIdentify q ↔
      (q.bufs.flatMap MmapBuffer.planes).Pairwise fun p p' => Apart (2 ^ 32) p.cell p'.cell := by
  have hmem : ∀ b p pl, q.plane b p = some pl ↔ ((b, p), pl) ∈ entries q.bufs 0 := by
    intro b p pl
    rw [mem_entries, Nat.sub_zero]
    exact (and_iff_right (Nat.zero_le b)).symm
  have hinj : ∀ e ∈ entries q.bufs 0, ∀ e' ∈ entries q.bufs 0, e.1 = e'.1 → e = e' :=
    fun e he e' he' heq => List.inj_on_of_nodup_map (nodup_keys q.bufs) he he' heq
  rw [← map_entries q.bufs 0, List.pairwise_map]
  constructor
  · rintro ⟨-, hdisjoint, hfind⟩
    have hnodup : (entries q.bufs 0).Nodup := List.Nodup.of_map _ (nodup_keys q.bufs)
    refine hnodup.pairwise_of_forall_ne ?_
    rintro ⟨⟨b, p⟩, pl⟩ he ⟨⟨b', p'⟩, pl'⟩ he' hne
    have hkey : (b, p) ≠ (b', p') := fun heq => hne (hinj _ he _ he' heq)
    refine ⟨hdisjoint _ _ _ _ _ _ ((hmem _ _ _).mpr he) ((hmem _ _ _).mpr he') hkey, fun heq => ?_⟩
    replace heq : pl.offset.toNat % 2 ^ 32 = pl'.offset.toNat % 2 ^ 32 := heq
    rw [Nat.mod_eq_of_lt pl.offset.toNat_lt, Nat.mod_eq_of_lt pl'.offset.toNat_lt] at heq
    have hfound := hfind _ _ _ ((hmem _ _ _).mpr he)
    rw [UInt32.toNat_inj.mp heq, hfind _ _ _ ((hmem _ _ _).mpr he')] at hfound
    exact hkey (Option.some.inj hfound).symm
  · intro hpair
    have hsymm : Std.Symm fun e e' : (ℕ × ℕ) × Vb2Plane => Apart (2 ^ 32) e.2.cell e'.2.cell :=
      ⟨fun _ _ h => h.symm⟩
    have hapart : ∀ e ∈ entries q.bufs 0, ∀ e' ∈ entries q.bufs 0, e ≠ e' → Apart (2 ^ 32) e.2.cell e'.2.cell :=
      fun e he e' he' hne => hpair.forall he he' hne
    refine ⟨fun b p pl hpl => ?_, fun b p pl b' p' pl' hpl hpl' hne => ?_, fun b p pl hpl => ?_⟩
    · refine dvd_offset h ?_
      rw [← map_entries q.bufs 0]
      exact List.mem_map_of_mem ((hmem b p pl).mp hpl)
    · exact (hapart _ ((hmem _ _ _).mp hpl) _ ((hmem _ _ _).mp hpl') fun heq => hne (Prod.mk.inj heq).1).1
    · have hin := (hmem b p pl).mp hpl
      rw [findPlaneByOffset_eq]
      rcases hfind : (entries q.bufs 0).find? fun e => e.2.offset.toUInt64 = pl.offset.toUInt64 with _ | e
      · exact absurd (List.find?_eq_none.mp hfind _ hin) (by simp)
      · have hoffset : e.2.offset = pl.offset := by
          have hsat := List.find?_some hfind
          have hnat := congrArg UInt64.toNat (of_decide_eq_true hsat)
          rw [UInt32.toNat_toUInt64, UInt32.toNat_toUInt64] at hnat
          exact UInt32.toNat_inj.mp hnat
        by_contra hne
        refine (hapart e (List.mem_of_find?_eq_some hfind) _ hin fun heq => hne ?_).2 ?_
        · rw [hfind, heq]
          rfl
        · show e.2.offset.toNat % 2 ^ 32 = pl.offset.toNat % 2 ^ 32
          rw [hoffset]

/-- **The cookies identify the planes** of a queue that has been filled by any calls exactly if the planes, each
rounded up to pages, fit into the `2 ^ 32` cookies, and none of them but the last one is empty. -/
theorem cookiesIdentify_iff (calls : List QueueCall) :
    CookiesIdentify (queueRun calls) ↔ Fits (2 ^ 32) ((queueRun calls).lengths.map pages) := by
  have hrow := inRow_run calls
  rw [cookiesIdentify_iff_pairwise hrow, pairwise_apart_iff hrow, MmapQueue.lengths, List.map_map]
  rfl

/-- Three buffers of 2 GiB. -/
def threeLarge : Call where
  count := 3
  minBuffersNeeded := 1
  numBuffers := 3
  sizes := ⟨[0x80000000], by decide, by decide⟩
  granted := 3
  acceptsFewer := false

/-- The third buffer has the cookies of the first one, and is never found. -/
theorem threeLarge_share : ¬ CookiesIdentify (queueRun [.reqbufs threeLarge]) := by
  rintro ⟨-, -, hfind⟩
  have hfound := hfind 2 0 ⟨0x80000000, 0⟩ (by decide +kernel)
  revert hfound
  decide +kernel

end Vb2
end TbsMedia
