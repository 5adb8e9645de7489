import Mathlib
import TbsMedia.Uvc.Queue

/-!
# The sequence numbers of a UVC stream

`stream->sequence` is meant to count the changes of the frame id, so that a gap between the buffers that
are delivered is a frame that has been lost.  It does, as long as no payload of a new frame finds the
buffer of the frame before it in use, with data in it.  The header of such a payload is decoded twice,
with the old buffer and with the next one, and is counted both times: `last_fid` stays as it is when the
first of the two returns.

* `Doubled`: the header of a payload is decoded twice.
* `start_counted`: a payload that is decoded once is counted once.
* `sequence_counts`: what this means for every run.
-/

namespace TbsMedia
namespace Uvc

open Function Lib

variable {s t : Stream} {a : ℕ} {data : List UInt8} {es : List Event}

/-- A payload of another frame finds the buffer with data in it. -/
def Doubled (s : Stream) (data : List UInt8) : Prop :=
  ¬ Invalid data ∧ s.lastFid ≠ fid data ∧ (s.buf.any fun a => (s.bufs a).bytesused != 0) = true

/-- No header is decoded twice. -/
def Single (s : Stream) : Event → Prop
  | .packet lost data => lost = false → ¬ Doubled s data
  | .bulk data _ => s.bulk.headerSize = 0 → s.bulk.skipPayload = false → ¬ Doubled s data
  | _ => True

instance (s : Stream) (data : List UInt8) : Decidable (Doubled s data) := inferInstanceAs (Decidable (_ ∧ _ ∧ _))

instance (s : Stream) (e : Event) : Decidable (Single s e) :=
  match e with
  | .packet _ _ => inferInstanceAs (Decidable (_ → _))
  | .bulk _ _ => inferInstanceAs (Decidable (_ → _ → _))
  | .queue _ _ _ | .complete | .queueWork | .copy _ => .isTrue trivial

/-! ## What is counted -/

/-- The buffer is in use. -/
def Busy (b : UvcBuffer) : Prop := b.state = .active ∨ b.state = .ready

/-- The sequence number is one less than the number of frames, for the stream, for the buffers in use and
for those delivered. -/
structure Numbered (s : Stream) : Prop where
  noFid : s.noFid = false
  sequence : s.sequence + 1 = UInt32.ofNat s.frames
  bufs : ∀ a, Busy (s.bufs a) → (s.bufs a).sequence + 1 = UInt32.ofNat (s.bufs a).frame
  given : ∀ g ∈ s.given, g.sequence + 1 = UInt32.ofNat g.frame

/-- `last_fid` is the frame id of the last payload, too. -/
structure Counted (s : Stream) : Prop where
  numbered : Numbered s
  lastFid : s.lastFid = s.prevFid.getD 255

/-- No frame is counted, and only buffers in use are delivered. -/
structure Passive (s t : Stream) : Prop where
  noFid : t.noFid = s.noFid
  sequence : t.sequence = s.sequence
  frames : t.frames = s.frames
  lastFid : t.lastFid = s.lastFid
  prevFid : t.prevFid = s.prevFid
  bufs : ∀ a, Busy (t.bufs a) → Busy (s.bufs a) ∧ (t.bufs a).sequence = (s.bufs a).sequence ∧
    (t.bufs a).frame = (s.bufs a).frame
  given : ∀ g ∈ t.given, g ∈ s.given ∨
    ∃ a, Busy (s.bufs a) ∧ g.sequence = (s.bufs a).sequence ∧ g.frame = (s.bufs a).frame

theorem Numbered.passive (h : Numbered s) (hp : Passive s t) : Numbered t := by
  refine ⟨hp.noFid.trans h.noFid, by rw [hp.sequence, hp.frames]; exact h.sequence, fun a ha => ?_, fun g hg => ?_⟩
  · obtain ⟨hbusy, hseq, hframe⟩ := hp.bufs a ha
    rw [hseq, hframe]
    exact h.bufs a hbusy
  · rcases hp.given g hg with hg | ⟨a, hbusy, hseq, hframe⟩
    · exact h.given g hg
    · rw [hseq, hframe]
      exact h.bufs a hbusy

theorem Counted.passive (h : Counted s) (hp : Passive s t) : Counted t :=
  ⟨h.numbered.passive hp, by rw [hp.lastFid, hp.prevFid]; exact h.lastFid⟩

theorem Passive.refl (s : Stream) : Passive s s :=
  ⟨rfl, rfl, rfl, rfl, rfl, fun _ ha => ⟨ha, rfl, rfl⟩, fun _ hg => Or.inl hg⟩

theorem Passive.trans {u : Stream} (h : Passive s t) (h' : Passive t u) : Passive s u := by
  refine ⟨h'.noFid.trans h.noFid, h'.sequence.trans h.sequence, h'.frames.trans h.frames,
    h'.lastFid.trans h.lastFid, h'.prevFid.trans h.prevFid, fun a ha => ?_, fun g hg => ?_⟩
  · obtain ⟨hbusy', hseq', hframe'⟩ := h'.bufs a ha
    obtain ⟨hbusy, hseq, hframe⟩ := h.bufs a hbusy'
    exact ⟨hbusy, hseq'.trans hseq, hframe'.trans hframe⟩
  · rcases h'.given g hg with hg | ⟨a, hbusy', hseq', hframe'⟩
    · exact h.given g hg
    · obtain ⟨hbusy, hseq, hframe⟩ := h.bufs a hbusy'
      exact Or.inr ⟨a, hbusy, hseq'.trans hseq, hframe'.trans hframe⟩

/-- A buffer is written to, and is not in use, or is so as before. -/
theorem passive_set {c : UvcBuffer}
    (hc : Busy c → Busy (s.bufs a) ∧ c.sequence = (s.bufs a).sequence ∧ c.frame = (s.bufs a).frame) :
    Passive s (s.set a c) := by
  refine ⟨rfl, rfl, rfl, rfl, rfl, fun b hb => ?_, fun _ hg => Or.inl hg⟩
  by_cases hba : b = a
  · subst hba
    rw [set_bufs] at hb ⊢
    exact hc hb
  · rw [set_bufs_of_ne _ _ hba] at hb ⊢
    exact ⟨hb, rfl, rfl⟩

/-- A reference is dropped on a buffer in use. -/
theorem passive_release (ha : Busy (s.bufs a)) : Passive s (queueBufferRelease s a) := by
  have hset : ∀ c : UvcBuffer, c.sequence = (s.bufs a).sequence → c.frame = (s.bufs a).frame →
      Passive s (s.set a c) := fun c hseq hframe => passive_set fun _ => ⟨ha, hseq, hframe⟩
  rcases queueBufferRelease_cases s a with ⟨-, heq⟩ | ⟨-, -, heq⟩ | ⟨-, -, heq⟩
  · rw [heq]
    exact hset _ rfl rfl
  · rw [heq]
    obtain ⟨hno, hseq, hframes, hlast, hprev, hbufs, hgiven⟩ := hset
      { s.bufs a with error := false, state := .queued, bytesused := 0, ref := 1 } rfl rfl
    exact ⟨hno, hseq, hframes, hlast, hprev, hbufs, hgiven⟩
  · rw [heq]
    obtain ⟨hno, hseq, hframes, hlast, hprev, hbufs, -⟩ := hset
      { s.bufs a with ref := (s.bufs a).ref - 1, state := if (s.bufs a).error then .error else .done } rfl rfl
    refine ⟨hno, hseq, hframes, hlast, hprev, hbufs, fun g hg => ?_⟩
    rcases List.mem_append.mp hg with hg | hg
    · exact Or.inl hg
    · rw [List.mem_singleton.mp hg]
      exact Or.inr ⟨a, ha, rfl, rfl⟩

theorem passive_validateBuffer (s : Stream) (a : ℕ) : Passive s (validateBuffer s a) := by
  unfold validateBuffer
  by_cases hwrong : s.dwMaxVideoFrameSize ≠ (s.bufs a).bytesused ∧ ¬ s.compressed
  · rw [if_pos hwrong]
    exact passive_set fun hc => ⟨hc, rfl, rfl⟩
  · rw [if_neg hwrong]
    exact Passive.refl s

/-- The decoder is done with a buffer. -/
theorem passive_nextBuffers (hready : (s.bufs a).state = .ready) : Passive s (nextBuffers s a) := by
  obtain ⟨-, -, hstate⟩ := validateBuffer_spec s a
  refine (passive_validateBuffer s a).trans (Passive.trans ?_ (passive_release (Or.inr ((hstate a).trans hready))))
  exact ⟨rfl, rfl, rfl, rfl, rfl, fun _ hb => ⟨hb, rfl, rfl⟩, fun _ hg => Or.inl hg⟩

theorem passive_nextIfReady (s : Stream) (a : ℕ) : Passive s (nextIfReady s a) := by
  unfold nextIfReady
  by_cases hready : (s.bufs a).state = .ready
  · rw [if_pos hready]
    exact passive_nextBuffers hready
  · rw [if_neg hready]
    exact Passive.refl s

theorem passive_decodeData (ha : Busy (s.bufs a)) (data : List UInt8) : Passive s (decodeData s a data) := by
  unfold decodeData
  dsimp only
  by_cases hzero : data.length = 0
  · rw [if_pos hzero]
    exact Passive.refl s
  · rw [if_neg hzero]
    have hset : ∀ c : UvcBuffer, c.sequence = (s.bufs a).sequence → c.frame = (s.bufs a).frame →
        ∀ ops, Passive s { s.set a c with ops := ops } := fun c hseq hframe ops => by
      obtain ⟨hno, hseq, hframes, hlast, hprev, hbufs, hgiven⟩ :=
        @passive_set s a c fun _ => ⟨ha, hseq, hframe⟩
      exact ⟨hno, hseq, hframes, hlast, hprev, hbufs, hgiven⟩
    by_cases hlong : data.length > (s.bufs a).length - (s.bufs a).bytesused
    · rw [if_pos hlong]
      exact hset _ (by rfl) (by rfl) _
    · rw [if_neg hlong]
      exact hset _ (by rfl) (by rfl) _

theorem passive_decodeEnd (hquirk : s.noFid = false) (ha : Busy (s.bufs a)) (data : List UInt8) :
    Passive s (decodeEnd s a data) := by
  unfold decodeEnd
  by_cases heof : bit data UVC_STREAM_EOF = true ∧ (s.bufs a).bytesused ≠ 0
  · rw [if_pos heof]
    have hset : Passive s (s.set a { s.bufs a with state := .ready }) := passive_set fun _ => ⟨ha, rfl, rfl⟩
    have hsame : invertFid (s.set a { s.bufs a with state := .ready }) =
        s.set a { s.bufs a with state := .ready } :=
      if_neg (by rw [show (s.set a { s.bufs a with state := .ready }).noFid = false from hquirk]; decide)
    rw [hsame]
    exact hset
  · rw [if_neg heof]
    exact Passive.refl s

theorem passive_setBulk (s : Stream) (bulk : Bulk) : Passive s { s with bulk := bulk } :=
  ⟨rfl, rfl, rfl, rfl, rfl, fun _ hb => ⟨hb, rfl, rfl⟩, fun _ hg => Or.inl hg⟩

/-! ## A payload is counted once -/

theorem fid_ne (data : List UInt8) : fid data ≠ 255 := by
  intro heq
  have hle : (fid data).toNat ≤ 1 := by
    unfold fid UVC_STREAM_FID
    rw [UInt8.toNat_and]
    exact Nat.and_le_right
  rw [heq] at hle
  exact absurd hle (by decide)

theorem Numbered.detectEnd (h : Numbered s) (hprev : s.prevFid = some (fid data))
    (honce : fid data = s.lastFid ∨ (s.bufs a).bytesused = 0) :
    Counted (detectEnd s a data).2 ∧ (detectEnd s a data).1 ≠ .again := by
  have hno : ¬ (fid data ≠ s.lastFid ∧ (s.bufs a).bytesused ≠ 0) := by
    rintro ⟨hfid, hbytes⟩
    rcases honce with heq | hzero
    · exact hfid heq
    · exact hbytes hzero
  unfold Uvc.detectEnd
  rw [if_neg hno]
  refine ⟨⟨⟨h.noFid, h.sequence, h.bufs, h.given⟩, ?_⟩, by simp⟩
  show fid data = s.prevFid.getD 255
  rw [hprev]
  rfl

theorem Numbered.synchronize (h : Numbered s) (hprev : s.prevFid = some (fid data))
    (honce : fid data = s.lastFid ∨ (s.bufs a).bytesused = 0) :
    Counted (synchronize s a data).2 ∧ (synchronize s a data).1 ≠ .again := by
  unfold Uvc.synchronize
  by_cases hactive : (s.bufs a).state ≠ .active
  · rw [if_pos hactive]
    unfold awaitStart
    by_cases hfid : fid data = s.lastFid
    · rw [if_pos hfid]
      have hsame : (if bit data UVC_STREAM_EOF then invertFid s else s) = s := by
        unfold invertFid
        rw [h.noFid, if_neg Bool.false_ne_true, ite_self]
      rw [hsame]
      refine ⟨⟨h, ?_⟩, by simp⟩
      rw [hprev, ← hfid]
      rfl
    · rw [if_neg hfid]
      have hset : Numbered (activate s a) := by
        refine ⟨h.noFid, h.sequence, fun b hb => ?_, h.given⟩
        by_cases hba : b = a
        · subst hba
          unfold activate
          rw [set_bufs]
          exact h.sequence
        · unfold activate at hb ⊢
          rw [set_bufs_of_ne _ _ hba] at hb ⊢
          exact h.bufs b hb
      refine hset.detectEnd hprev (Or.inr ?_)
      unfold activate
      rw [set_bufs]
      exact honce.resolve_left hfid
  · rw [if_neg hactive]
    exact h.detectEnd hprev honce

/-- The frame and the sequence number go up together. -/
theorem Counted.advance (h : Counted s) (hvalid : ¬ Invalid data) :
    Numbered (advance (countFrame s data) data) ∧
      (advance (countFrame s data) data).prevFid = some (fid data) ∧
      (advance (countFrame s data) data).lastFid = s.lastFid ∧
      (advance (countFrame s data) data).bufs = s.bufs ∧ (advance (countFrame s data) data).buf = s.buf := by
  by_cases hsame : s.prevFid = some (fid data)
  · have hlast : s.lastFid = fid data := by
      rw [h.lastFid, hsame]
      rfl
    have hcount : countFrame s data = s := if_pos (Or.inr hsame)
    have hadv : Uvc.advance s data = s := if_neg (not_not.mpr hlast)
    rw [hcount, hadv]
    exact ⟨h.numbered, hsame, rfl, rfl, rfl⟩
  · have hlast : s.lastFid ≠ fid data := by
      rw [h.lastFid]
      cases hprev : s.prevFid with
      | none => exact (fid_ne data).symm
      | some f =>
        rw [hprev] at hsame
        exact fun heq => hsame (congrArg some heq)
    have hcount : countFrame s data = { s with prevFid := some (fid data), frames := s.frames + 1 } :=
      if_neg (not_or.mpr ⟨hvalid, hsame⟩)
    rw [hcount]
    have hadv : Uvc.advance { s with prevFid := some (fid data), frames := s.frames + 1 } data =
        { s with prevFid := some (fid data), frames := s.frames + 1, sequence := s.sequence + 1 } :=
      if_pos hlast
    rw [hadv]
    refine ⟨⟨h.numbered.noFid, ?_, h.numbered.bufs, h.numbered.given⟩, rfl, rfl, rfl, rfl⟩
    show s.sequence + 1 + 1 = UInt32.ofNat (s.frames + 1)
    rw [h.numbered.sequence, UInt32.ofNat_add]
    rfl

/-- **A payload that is decoded once** is counted once. -/
theorem start_counted (h : Counted s) (hsingle : ¬ Doubled s data) : Counted (start s data).2 := by
  suffices hdecode : Counted (decodeStart (countFrame s data) data).2 ∧
      (decodeStart (countFrame s data) data).1 ≠ .again by
    obtain ⟨hcounted, hagain⟩ := hdecode
    unfold start startLoop
    rcases hr : decodeStart (countFrame s data) data with ⟨r, t⟩
    rw [hr] at hcounted hagain
    cases r with
    | again => exact absurd rfl hagain
    | header n => exact hcounted
    | inval => exact hcounted
    | nodata => exact hcounted
  unfold decodeStart
  by_cases hvalid : Invalid data
  · rw [if_pos hvalid]
    have hcount : countFrame s data = s := if_pos (Or.inl hvalid)
    rw [hcount]
    exact ⟨h, by simp⟩
  · rw [if_neg hvalid]
    obtain ⟨hnumbered, hprev, hlast, hbufs, hbuf⟩ := h.advance hvalid
    dsimp only
    rw [hbuf]
    cases hb : s.buf with
    | none =>
      refine ⟨⟨⟨hnumbered.noFid, hnumbered.sequence, hnumbered.bufs, hnumbered.given⟩, ?_⟩, by simp⟩
      show fid data = (Uvc.advance (countFrame s data) data).prevFid.getD 255
      rw [hprev]
      rfl
    | some a =>
      dsimp only
      have hmark : Passive (Uvc.advance (countFrame s data) data)
          (markError (Uvc.advance (countFrame s data) data) a data) := by
        unfold markError
        cases bit data UVC_STREAM_ERR with
        | true => exact passive_set fun hc => ⟨hc, rfl, rfl⟩
        | false => exact Passive.refl _
      have hbytes : ((markError (Uvc.advance (countFrame s data) data) a data).bufs a).bytesused =
          (s.bufs a).bytesused := by
        rw [← hbufs]
        unfold markError
        cases bit data UVC_STREAM_ERR with
        | true =>
          rw [if_pos rfl, set_bufs]
        | false => rfl
      refine (hnumbered.passive hmark).synchronize (hmark.prevFid.trans hprev) ?_
      rw [hmark.lastFid, hlast, hbytes]
      by_cases hfid : fid data = s.lastFid
      · exact Or.inl hfid
      · refine Or.inr (by_contra fun hne => hsingle ⟨hvalid, Ne.symm hfid, ?_⟩)
        rw [hb]
        exact bne_iff_ne.mpr hne

/-! ## Packets, URBs and copies -/

/-- A buffer with the driver that is not empty is in use. -/
theorem Owned.busy (h : Owned s) (hops : 0 < opsOn s a) : Busy (s.bufs a) := by
  obtain ⟨hfree, -, -, hqueued⟩ := h.held a
  unfold Busy
  cases hstate : (s.bufs a).state with
  | active => exact Or.inl rfl
  | ready => exact Or.inr rfl
  | queued =>
    have hzero := (hqueued hstate).2
    omega
  | idle =>
    have hzero := (hfree (free_eq hstate)).2
    omega
  | done =>
    have hzero := (hfree (free_eq hstate)).2
    omega
  | error =>
    have hzero := (hfree (free_eq hstate)).2
    omega

theorem Owned.passive_runCopy (h : Owned s) {k : ℕ} {op : CopyOp} {ops : List CopyOp}
    (hk : s.works[k]? = some (op :: ops)) : Passive s (Uvc.runCopy { s with works := s.works.set k ops } op) := by
  have hself := opsOn_pop hk op.buf
  rw [if_pos rfl] at hself
  have hbusy : Busy (s.bufs op.buf) := h.busy (by omega)
  have hwrite : Passive s (({ s with works := s.works.set k ops } : Stream).set op.buf
      { s.bufs op.buf with mem := (s.bufs op.buf).mem.write op.dst op.bytes }) := by
    obtain ⟨hno, hseq, hframes, hlast, hprev, hbufs, hgiven⟩ := @passive_set s op.buf
      { s.bufs op.buf with mem := (s.bufs op.buf).mem.write op.dst op.bytes } fun _ => ⟨hbusy, rfl, rfl⟩
    exact ⟨hno, hseq, hframes, hlast, hprev, hbufs, hgiven⟩
  refine hwrite.trans (passive_release ?_)
  rw [set_bufs]
  exact hbusy

theorem passive_prepareAndQueue (s : Stream) (a : ℕ) (mem : Mem UInt8) (length : ℕ) :
    Passive s (prepareAndQueue s a mem length) := by
  rw [prepareAndQueue_eq]
  obtain ⟨hno, hseq, hframes, hlast, hprev, hbufs, hgiven⟩ := @passive_set s a { s.bufs a with
    state := .queued, error := false, mem := mem, length := length, bytesused := 0, ref := 1 }
    fun hbusy => absurd hbusy (by simp [Busy])
  exact ⟨hno, hseq, hframes, hlast, hprev, hbufs, hgiven⟩

/-- The end of a payload, with a buffer in use. -/
theorem Counted.finish (h : Counted s) (ha : Busy (s.bufs a)) (data : List UInt8) :
    Counted (nextIfReady (decodeEnd s a data) a) :=
  (h.passive (passive_decodeEnd h.numbered.noFid ha data)).passive (passive_nextIfReady _ a)

theorem Busy.decodeData (ha : Busy (s.bufs a)) (data : List UInt8) : Busy ((decodeData s a data).bufs a) :=
  (decodeData_rest s a data).2 ha

theorem Counted.decodeIsocPacket (h : Counted s) (howned : Owned s) {lost : Bool}
    (hsingle : lost = false → ¬ Doubled s data) : Counted (decodeIsocPacket s lost data) := by
  unfold Uvc.decodeIsocPacket
  cases lost with
  | true =>
    rw [if_pos rfl]
    cases hbuf : s.buf with
    | none =>
      rw [withBuf_none hbuf]
      exact h
    | some a =>
      rw [withBuf_some hbuf]
      exact h.passive (passive_set fun hc => ⟨hc, rfl, rfl⟩)
  | false =>
    rw [if_neg (by decide)]
    have hcounted := start_counted h (hsingle rfl)
    obtain ⟨-, -, -, hheader⟩ := howned.start data
    rcases hstart : Uvc.start s data with ⟨r, t⟩
    rw [hstart] at hcounted hheader
    cases r with
    | header n =>
      obtain ⟨a, hbuf, hactive⟩ := hheader n rfl
      dsimp only at hbuf hactive hcounted ⊢
      rw [withBuf_some hbuf]
      have hbusy : Busy (t.bufs a) := Or.inl hactive
      exact (hcounted.passive (passive_decodeData hbusy _)).finish (hbusy.decodeData _) data
    | inval => exact hcounted
    | nodata => exact hcounted
    | again => exact hcounted

/-- The buffer of a bulk payload that is not skipped is in use. -/
def InUse (s : Stream) : Prop := ∀ a, s.buf = some a → s.bulk.skipPayload = false → Busy (s.bufs a)

theorem Counted.bulkStart (h : Counted s) (hsingle : ¬ Doubled s data) : Counted (bulkStart s data).2 := by
  have hcounted := start_counted h hsingle
  unfold Uvc.bulkStart
  rcases hstart : Uvc.start s data with ⟨r, t⟩
  rw [hstart] at hcounted
  cases r with
  | header n =>
    dsimp only
    split_ifs
    · exact hcounted.passive (passive_setBulk t _)
    · exact hcounted.passive (passive_setBulk t _)
  | inval => exact hcounted.passive (passive_setBulk t _)
  | nodata => exact hcounted.passive (passive_setBulk t _)
  | again => exact hcounted.passive (passive_setBulk t _)

theorem Counted.bulkData (h : Counted s) (huse : InUse s) (data : List UInt8) :
    Counted (bulkData s data) ∧ InUse (bulkData s data) := by
  unfold Uvc.bulkData
  cases hskip : s.bulk.skipPayload with
  | true =>
    rw [if_pos rfl]
    exact ⟨h, huse⟩
  | false =>
    rw [if_neg (by decide)]
    cases hbuf : s.buf with
    | none =>
      rw [withBuf_none hbuf]
      exact ⟨h, huse⟩
    | some a =>
      rw [withBuf_some hbuf]
      have hbusy := huse a hbuf hskip
      refine ⟨h.passive (passive_decodeData hbusy data), fun b hb _ => ?_⟩
      rw [(decodeData_rest s a data).1.buf, hbuf] at hb
      obtain rfl := Option.some.inj hb
      exact hbusy.decodeData data

theorem Counted.bulkEnd (h : Counted s) (huse : InUse s) : Counted (bulkEnd s) := by
  have hfinish : Counted (bulkFinish s) := by
    unfold bulkFinish
    cases hskip : s.bulk.skipPayload with
    | true =>
      rw [if_pos rfl]
      exact h
    | false =>
      rw [if_neg (by decide)]
      cases hbuf : s.buf with
      | none =>
        rw [withBuf_none hbuf]
        exact h
      | some a =>
        rw [withBuf_some hbuf]
        exact h.finish (huse a hbuf hskip) _
  exact hfinish.passive (passive_setBulk _ _)

theorem Counted.decodeUrb (h : Counted s) (hrunning : Running s) (hkind : s.isoc = false)
    (hsingle : s.bulk.headerSize = 0 → s.bulk.skipPayload = false → ¬ Doubled s data) (transferLength : ℕ) :
    Counted (decodeUrb s data transferLength) := by
  have hlast : ∀ (u : Stream) (p : Prop) [Decidable p], Counted u ∧ InUse u →
      Counted (if p then Uvc.bulkEnd u else u) := by
    intro u p _ hu
    by_cases hp : p
    · rw [if_pos hp]
      exact hu.1.bulkEnd hu.2
    · rw [if_neg hp]
      exact hu.1
  unfold Uvc.decodeUrb
  dsimp only
  by_cases hfirst : s.bulk.headerSize = 0 ∧ ¬ s.bulk.skipPayload = true
  · rw [if_pos hfirst]
    have hcounted := h.bulkStart (hsingle hfirst.1 (Bool.eq_false_of_not_eq_true hfirst.2))
    obtain ⟨-, -, hactive⟩ := hrunning.owned.bulkStart data
    refine hlast _ _ (hcounted.bulkData (fun a hbuf hskip => ?_) _)
    obtain ⟨b, hb, hstate⟩ := hactive hskip
    obtain rfl := Option.some.inj (hb.symm.trans hbuf)
    exact Or.inl hstate
  · rw [if_neg hfirst]
    refine hlast _ _ (h.bulkData (fun a hbuf hskip => ?_) data)
    have hsize : s.bulk.headerSize ≠ 0 := fun hzero => hfirst ⟨hzero, by
      rw [hskip]
      decide⟩
    obtain ⟨b, hb, hstate⟩ := hrunning.mid hkind hsize hskip
    obtain rfl := Option.some.inj (hb.symm.trans (hrunning.owned.head hbuf))
    exact hstate

/-! ## Runs -/

/-- **Each step** counts the frames. -/
theorem Counted.step (h : Counted s) (hrunning : Running s) {e : Event} (hsingle : Single s e)
    (hstep : step s e = some t) : Counted t := by
  cases e with
  | queue a mem length =>
    unfold Uvc.step at hstep
    dsimp only at hstep
    split_ifs at hstep
    obtain rfl := Option.some.inj hstep
    exact h.passive (passive_prepareAndQueue s a mem length)
  | complete =>
    unfold Uvc.step at hstep
    dsimp only at hstep
    split_ifs at hstep
    obtain rfl := Option.some.inj hstep
    exact ⟨⟨h.numbered.noFid, h.numbered.sequence, h.numbered.bufs, h.numbered.given⟩, h.lastFid⟩
  | packet lost data =>
    unfold Uvc.step at hstep
    dsimp only at hstep
    split_ifs at hstep
    obtain rfl := Option.some.inj hstep
    exact h.decodeIsocPacket hrunning.owned hsingle
  | bulk data transferLength =>
    unfold Uvc.step at hstep
    dsimp only at hstep
    split_ifs at hstep with hkind
    obtain rfl := Option.some.inj hstep
    unfold decodeBulk
    by_cases hnone : data.length = 0 ∧ s.bulk.headerSize = 0
    · rw [if_pos hnone]
      exact h
    · rw [if_neg hnone]
      have hset : Counted { s with bulk.payloadSize := (s.bulk.payloadSize + data.length) % 2 ^ 32 } :=
        h.passive (passive_setBulk s _)
      have hrunning' : Running { s with bulk.payloadSize := (s.bulk.payloadSize + data.length) % 2 ^ 32 } :=
        ⟨hrunning.owned.setBulk _, hrunning.mid⟩
      exact hset.decodeUrb hrunning' (Bool.eq_false_of_not_eq_true hkind) hsingle transferLength
  | queueWork =>
    obtain rfl := Option.some.inj hstep
    exact ⟨⟨h.numbered.noFid, h.numbered.sequence, h.numbered.bufs, h.numbered.given⟩, h.lastFid⟩
  | copy k =>
    unfold Uvc.step at hstep
    dsimp only at hstep
    split at hstep
    · rename_i op ops hk
      obtain rfl := Option.some.inj hstep
      exact h.passive (hrunning.owned.passive_runCopy hk)
    · cases hstep

theorem counted_init (isoc : Bool) (dwMaxVideoFrameSize maxPayloadSize : ℕ)
    (compressed dropCorrupted : Bool) (bufs : ℕ → UvcBuffer) :
    Counted (Stream.init isoc dwMaxVideoFrameSize maxPayloadSize compressed false dropCorrupted bufs) := by
  refine ⟨⟨rfl, ?_, fun a hbusy => ?_, fun _ hg => absurd hg List.not_mem_nil⟩, rfl⟩
  · show (-1 : UInt32) + 1 = UInt32.ofNat 0
    decide
  · rcases hbusy with hbusy | hbusy
    · cases hbusy
    · cases hbusy

/-- **Every run** whose headers are decoded once counts the frames: each change of the frame id is one,
and the sequence numbers of two buffers that are given back differ by the changes between their frames. -/
theorem sequence_counts (isoc : Bool) (dwMaxVideoFrameSize maxPayloadSize : ℕ)
    (compressed dropCorrupted : Bool) (bufs : ℕ → UvcBuffer)
    (hsingle : Along step Single
      (Stream.init isoc dwMaxVideoFrameSize maxPayloadSize compressed false dropCorrupted bufs) es)
    (hrun : run step
      (Stream.init isoc dwMaxVideoFrameSize maxPayloadSize compressed false dropCorrupted bufs) es = some t) :
    t.sequence + 1 = UInt32.ofNat t.frames ∧
      ∀ g ∈ t.given, ∀ g' ∈ t.given, g.frame ≤ g'.frame →
        g'.sequence = g.sequence + UInt32.ofNat (g'.frame - g.frame) := by
  obtain ⟨-, hnumbered, -⟩ := @run_inv_along _ _ step _ _ _ (fun u => Running u ∧ Counted u) Single
    (fun _ _ _ hs hsing hstep => ⟨(hs.1.step hstep).1, hs.2.step hs.1 hsing hstep⟩)
    ⟨running_init .., counted_init ..⟩ hsingle hrun
  refine ⟨hnumbered.sequence, fun g hg g' hg' hle => ?_⟩
  have hfirst := hnumbered.given g hg
  have hsecond := hnumbered.given g' hg'
  have hframe : UInt32.ofNat g'.frame = UInt32.ofNat g.frame + UInt32.ofNat (g'.frame - g.frame) := by
    rw [← UInt32.ofNat_add, Nat.add_sub_cancel' hle]
  have hsum : g'.sequence + 1 = g.sequence + UInt32.ofNat (g'.frame - g.frame) + 1 := by
    rw [hsecond, hframe, ← hfirst, UInt32.add_assoc, UInt32.add_assoc, UInt32.add_comm 1]
  exact (UInt32.add_left_inj 1).mp hsum

/-- A stream of packets, for frames of two bytes. -/
def smallStream : Stream := Stream.init true 2 0 false false false fun _ => ⟨.idle, false, fun _ => 0, 0, 0, 0, 0, 0⟩

/-- No buffer is there for the second of three frames. -/
def threeFrames : List Event :=
  [.queue 0 (fun _ => 0) 2, .complete, .packet false [2, 2, 10, 11], .packet false [2, 3, 20, 21], .queueWork,
    .copy 0, .queue 0 (fun _ => 0) 2, .complete, .packet false [2, 2, 30, 31], .queueWork, .copy 1]

theorem sequence_counts_threeFrames :
    ∃ t, run step smallStream threeFrames = some t ∧
      t.given.map (fun g => (g.frame, g.sequence, g.bytes)) = [(1, 0, [10, 11]), (3, 2, [30, 31])] ∧
      t.sequence + 1 = UInt32.ofNat t.frames ∧
      ∀ g ∈ t.given, ∀ g' ∈ t.given, g.frame ≤ g'.frame →
        g'.sequence = g.sequence + UInt32.ofNat (g'.frame - g.frame) := by
  have hmap : (run step smallStream threeFrames).map
      (fun t => t.given.map fun g => (g.frame, g.sequence, g.bytes)) =
        some [(1, 0, [10, 11]), (3, 2, [30, 31])] := by decide +kernel
  obtain ⟨t, hrun, hgiven⟩ := Option.map_eq_some_iff.mp hmap
  exact ⟨t, hrun, hgiven, sequence_counts true 2 0 false false _ (by decide +kernel) hrun⟩

/-- The first of two frames does not end with an EOF bit. -/
def openFrame : List Event :=
  [.queue 0 (fun _ => 0) 2, .queue 1 (fun _ => 0) 2, .complete, .packet false [2, 0, 10, 11],
    .packet false [2, 3, 20, 21], .queueWork, .copy 0, .copy 0]

/-- The frame id has changed twice, to the first frame and to the second, and no frame is lost.  But the
sequence number is two more for the second frame than for the first one. -/
theorem sequence_skips :
    ∃ t, run step smallStream openFrame = some t ∧ t.frames = 2 ∧ t.sequence + 1 = 3 ∧
      t.given.map (fun g => (g.frame, g.sequence)) = [(1, 0), (2, 2)] := by
  have hmap : (run step smallStream openFrame).map
      (fun t => (t.frames, t.sequence + 1, t.given.map fun g => (g.frame, g.sequence))) =
        some (2, 3, [(1, 0), (2, 2)]) := by decide +kernel
  obtain ⟨t, hrun, heq⟩ := Option.map_eq_some_iff.mp hmap
  obtain ⟨hframes, heq⟩ := Prod.mk.inj heq
  obtain ⟨hsequence, hgiven⟩ := Prod.mk.inj heq
  exact ⟨t, hrun, hframes, hsequence, hgiven⟩

end Uvc
end TbsMedia
