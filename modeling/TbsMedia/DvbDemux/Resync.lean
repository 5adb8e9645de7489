import Mathlib
import TbsMedia.DvbDemux.SwFilter

/-!
# Finding the packets again

On bytes that are no transport stream `_dvb_dmx_swfilter` looks for the next sync byte, and where there
has been garbage it looks back from there by the length of a packet as well.  The step back never reaches
the packet before, so it costs no progress.

* `Loop`: the runs of the main loop that come to an end, with where the packets begin.
* `findNextPacket_spec`: what the search finds.
* `Loop.spec`: what a run of the loop hands on.
* `swfilter_resync`: what one buffer does, for any bytes.
-/

namespace TbsMedia
namespace Demux

open Lib

variable {σ : Type*} {handle : σ → TsPacket → σ} {buf : List UInt8} {pktsize : ℕ}

/-! ## The search -/

/-- The search goes on behind the beginning of the packet before, and stops at a sync byte or at the end. -/
theorem findNextPacket_spec (hsize : 0 < pktsize) {start : ℕ} (hstart : start ≤ buf.length) :
    findNextPacket buf start pktsize ≤ buf.length ∧
      start < findNextPacket buf start pktsize + pktsize ∧
      (findNextPacket buf start pktsize < buf.length →
        isSync pktsize (buf.getD (findNextPacket buf start pktsize) 0) = true) := by
  obtain ⟨pos, hpos⟩ : ∃ pos, pos = start + (buf.drop start).findIdx (isSync pktsize) := ⟨_, rfl⟩
  have hle : pos ≤ buf.length := by
    have hidx := @List.findIdx_le_length _ (isSync pktsize) (buf.drop start)
    rw [List.length_drop] at hidx
    omega
  have hsync : pos < buf.length → isSync pktsize (buf.getD pos 0) = true := by
    intro hlt
    have hidx : (buf.drop start).findIdx (isSync pktsize) < (buf.drop start).length := by
      rw [List.length_drop]
      omega
    have hget := @List.findIdx_getElem _ (isSync pktsize) (buf.drop start) hidx
    rw [List.getElem_drop] at hget
    rw [List.getD_eq_getElem _ _ hlt]
    simpa only [hpos] using hget
  unfold findNextPacket
  dsimp only
  rw [← hpos]
  by_cases hback : pos - start ≠ 0 ∧ pktsize ≤ pos ∧ isSync pktsize (buf.getD (pos - pktsize) 0) = true
  · rw [if_pos hback]
    exact ⟨by omega, by omega, fun _ => hback.2.2⟩
  · rw [if_neg hback]
    exact ⟨hle, by omega, hsync⟩

/-! ## The loop -/

/-- The loop stops at `p`. -/
def Stops (buf : List UInt8) (pktsize p : ℕ) : Prop := p ≥ buf.length ∨ buf.length - p < pktsize

/-- The packet at `p` is handed on. -/
def handOn (handle : σ → TsPacket → σ) (buf : List UInt8) (pktsize p : ℕ) (s : SwFilter σ) : SwFilter σ :=
  let q := TsPacket.load (Mem.ofList 0 buf) p
  if pktsize = 204 ∧ q 0 = 0xb8 then
    let tsbuf := (s.tsbuf.write 0 q.bytes).write 0 [0x47]
    { s with demux := handle s.demux (TsPacket.load tsbuf 0), tsbuf }
  else { s with demux := handle s.demux q }

/-- The `while (1)` loop comes to an end: from `p` and `s` it hands on the packets at `starts`, and then it
is at `p'` and `s'`. -/
inductive Loop (handle : σ → TsPacket → σ) (buf : List UInt8) (pktsize : ℕ) :
    ℕ → SwFilter σ → List ℕ → ℕ → SwFilter σ → Prop
  | stop {p : ℕ} {s : SwFilter σ} (h : Stops buf pktsize (findNextPacket buf p pktsize)) :
    Loop handle buf pktsize p s [] (findNextPacket buf p pktsize) s
  | next {p p' : ℕ} {s s' : SwFilter σ} {starts : List ℕ}
    (h : ¬ Stops buf pktsize (findNextPacket buf p pktsize))
    (hrest : Loop handle buf pktsize (findNextPacket buf p pktsize + pktsize)
      (handOn handle buf pktsize (findNextPacket buf p pktsize) s) starts p' s') :
    Loop handle buf pktsize p s (findNextPacket buf p pktsize :: starts) p' s'

/-- A round of the loop. -/
theorem swfilterLoop_succ (fuel p : ℕ) (s : SwFilter σ) :
    (Stops buf pktsize (findNextPacket buf p pktsize) ∧
        swfilterLoop handle buf pktsize (fuel + 1) p s = (findNextPacket buf p pktsize, s)) ∨
      (¬ Stops buf pktsize (findNextPacket buf p pktsize) ∧
        swfilterLoop handle buf pktsize (fuel + 1) p s =
          swfilterLoop handle buf pktsize fuel (findNextPacket buf p pktsize + pktsize)
            (handOn handle buf pktsize (findNextPacket buf p pktsize) s)) := by
  rw [swfilterLoop]
  dsimp only
  by_cases hend : findNextPacket buf p pktsize ≥ buf.length
  · rw [if_pos hend]
    exact Or.inl ⟨Or.inl hend, rfl⟩
  rw [if_neg hend]
  by_cases hshort : buf.length - findNextPacket buf p pktsize < pktsize
  · rw [if_pos hshort]
    exact Or.inl ⟨Or.inr hshort, rfl⟩
  rw [if_neg hshort]
  refine Or.inr ⟨not_or.mpr ⟨hend, hshort⟩, ?_⟩
  unfold handOn
  dsimp only
  split_ifs <;> rfl

/-- **The loop terminates**, since the cursor gets ahead in every round. -/
theorem loop_swfilterLoop (hsize : 0 < pktsize) :
    ∀ (fuel p : ℕ) (s : SwFilter σ), p ≤ buf.length → buf.length < fuel + p →
      ∃ starts, Loop handle buf pktsize p s starts (swfilterLoop handle buf pktsize fuel p s).1
        (swfilterLoop handle buf pktsize fuel p s).2 := by
  intro fuel
  induction fuel with
  | zero =>
    intro p s hp hfuel
    omega
  | succ fuel ih =>
    intro p s hp hfuel
    obtain ⟨-, hahead, -⟩ := findNextPacket_spec hsize hp
    rcases @swfilterLoop_succ _ handle buf pktsize fuel p s with ⟨hstop, hround⟩ | ⟨hgo, hround⟩
    · rw [hround]
      exact ⟨[], .stop hstop⟩
    · have hfits := not_or.mp hgo
      rw [hround]
      obtain ⟨starts, hrest⟩ := ih (findNextPacket buf p pktsize + pktsize)
        (handOn handle buf pktsize (findNextPacket buf p pktsize) s) (by omega) (by omega)
      exact ⟨_, .next hgo hrest⟩

@[simp] theorem tsbufp_handOn (p : ℕ) (s : SwFilter σ) : (handOn handle buf pktsize p s).tsbufp = s.tsbufp := by
  unfold handOn
  dsimp only
  split_ifs <;> rfl

/-- **What a run of the loop hands on**: packets of the buffer that begin with a sync byte, each behind the
beginning of the one before.  What is left is no packet, and begins with a sync byte. -/
theorem Loop.spec (hsize : 0 < pktsize) {p p' : ℕ} {s s' : SwFilter σ} {starts : List ℕ}
    (h : Loop handle buf pktsize p s starts p' s') (hp : p ≤ buf.length) :
    starts.Pairwise (· < ·) ∧
      (∀ a ∈ starts, p < a + pktsize ∧ isSync pktsize (buf.getD a 0) = true ∧ a + pktsize ≤ buf.length) ∧
      buf.length - p' < pktsize ∧
      (p' < buf.length → isSync pktsize (buf.getD p' 0) = true) ∧
      s'.tsbufp = s.tsbufp := by
  induction h with
  | stop hstop =>
    obtain ⟨-, -, hsync⟩ := findNextPacket_spec hsize hp
    refine ⟨.nil, fun a ha => absurd ha List.not_mem_nil, ?_, hsync, rfl⟩
    rcases hstop with hend | hshort
    · omega
    · exact hshort
  | @next p p' s s' starts hgo hrest ih =>
    obtain ⟨-, hahead, hsync⟩ := findNextPacket_spec hsize hp
    have hfits := not_or.mp hgo
    obtain ⟨hsorted, hall, hleft, hlast, htsbufp⟩ := ih (by omega)
    refine ⟨List.pairwise_cons.mpr ⟨fun a ha => ?_, hsorted⟩, fun a ha => ?_, hleft, hlast,
      htsbufp.trans (tsbufp_handOn ..)⟩
    · have hbehind := (hall a ha).1
      omega
    · rcases List.mem_cons.mp ha with rfl | ha
      · exact ⟨hahead, hsync (by omega), by omega⟩
      · obtain ⟨hbehind, hrest⟩ := hall a ha
        exact ⟨by omega, hrest⟩

/-! ## One buffer -/

/-- What is kept begins with the sync byte. -/
def Synced (s : SwFilter σ) : Prop := s.tsbufp ≠ 0 → s.tsbuf 0 = 0x47

/-- The buffer ends what has been kept, so that the main loop is reached. -/
def ReachesLoop (pktsize : ℕ) (s : SwFilter σ) (buf : List UInt8) : Prop :=
  s.tsbufp = 0 ∨ pktsize - s.tsbufp ≤ buf.length

/-- The cursor and the state in front of the main loop. -/
def loopEntry (handle : σ → TsPacket → σ) (pktsize : ℕ) (s : SwFilter σ) (buf : List UInt8) : ℕ × SwFilter σ :=
  if s.tsbufp ≠ 0 then
    let tsbuf := s.tsbuf.write s.tsbufp (buf.take (pktsize - s.tsbufp))
    (pktsize - s.tsbufp,
      ⟨if tsbuf 0 = 0x47 then handle s.demux (TsPacket.load tsbuf 0) else s.demux, tsbuf, 0⟩)
  else (0, s)

variable {s : SwFilter σ}

theorem dvbDmxSwfilterSized_of_reaches (h : ReachesLoop pktsize s buf) :
    dvbDmxSwfilterSized handle pktsize s buf =
      swfilterFrom handle buf pktsize (loopEntry handle pktsize s buf).1 (loopEntry handle pktsize s buf).2 := by
  unfold dvbDmxSwfilterSized loopEntry
  by_cases hkept : s.tsbufp = 0
  · rw [if_neg (not_not.mpr hkept), if_neg (not_not.mpr hkept)]
  · rw [if_pos hkept, if_pos hkept]
    exact if_neg (not_lt.mpr (h.resolve_left hkept))

theorem dvbDmxSwfilterSized_of_not_reaches (h : ¬ ReachesLoop pktsize s buf) :
    dvbDmxSwfilterSized handle pktsize s buf =
      { s with tsbuf := s.tsbuf.write s.tsbufp buf, tsbufp := s.tsbufp + buf.length } := by
  obtain ⟨hkept, hshort⟩ := not_or.mp h
  unfold dvbDmxSwfilterSized
  rw [if_pos hkept]
  exact if_pos (not_le.mp hshort)

theorem loopEntry_spec (h : ReachesLoop pktsize s buf) :
    (loopEntry handle pktsize s buf).1 ≤ buf.length ∧ (loopEntry handle pktsize s buf).2.tsbufp = 0 := by
  unfold loopEntry
  by_cases hkept : s.tsbufp = 0
  · rw [if_neg (not_not.mpr hkept)]
    exact ⟨Nat.zero_le _, hkept⟩
  · rw [if_pos hkept]
    exact ⟨h.resolve_left hkept, rfl⟩

/-- What is left is kept, with its sync byte fixed. -/
theorem carryOver_spec {p : ℕ} (hleft : buf.length - p < pktsize)
    (hsync : p < buf.length → isSync pktsize (buf.getD p 0) = true) (hs : s.tsbufp = 0) :
    (carryOver buf pktsize p s).tsbufp < pktsize ∧ Synced (carryOver buf pktsize p s) := by
  unfold carryOver
  dsimp only
  by_cases hzero : buf.length - p = 0
  · rw [if_neg (not_not.mpr hzero)]
    exact ⟨by omega, fun hne => absurd hs hne⟩
  rw [if_pos hzero]
  refine ⟨hleft, fun _ => ?_⟩
  have hlt : p < buf.length := by omega
  have hdrop : buf.drop p = buf.getD p 0 :: buf.drop (p + 1) := by
    rw [List.drop_eq_getElem_cons hlt, List.getD_eq_getElem _ _ hlt]
  have hhead : ∀ b ∈ (buf.drop p).head?, isSync pktsize b = true := by
    rw [hdrop]
    intro b hb
    rw [← Option.some.inj hb]
    exact hsync hlt
  have hne : buf.drop p ≠ [] := by
    rw [hdrop]
    exact List.cons_ne_nil _ _
  dsimp only
  rw [write_fixSync hne hhead, hdrop]
  have hbyte : buf.getD p 0 = 0x47 ∨ pktsize = 204 ∧ buf.getD p 0 = 0xb8 := of_decide_eq_true (hsync hlt)
  change (if buf.getD p 0 = 0xb8 then (0x47 : UInt8) else buf.getD p 0) = 0x47
  rcases hbyte with hbyte | ⟨-, hbyte⟩
  · rw [hbyte]
    rfl
  · rw [if_pos hbyte]

/-- The buffers that end what has been kept. -/
theorem resync_of_reaches (handle : σ → TsPacket → σ) (hsize : 0 < pktsize) (h : ReachesLoop pktsize s buf) :
    (dvbDmxSwfilterSized handle pktsize s buf).tsbufp < pktsize ∧
      Synced (dvbDmxSwfilterSized handle pktsize s buf) ∧
      ∃ starts p s', Loop handle buf pktsize (loopEntry handle pktsize s buf).1
          (loopEntry handle pktsize s buf).2 starts p s' ∧
        dvbDmxSwfilterSized handle pktsize s buf = carryOver buf pktsize p s' ∧
        starts.Pairwise (· < ·) ∧
        ∀ a ∈ starts, isSync pktsize (buf.getD a 0) = true ∧ a + pktsize ≤ buf.length := by
  obtain ⟨hp, hzero⟩ := @loopEntry_spec _ handle _ _ _ h
  obtain ⟨starts, hloop⟩ := @loop_swfilterLoop _ handle buf _ hsize (buf.length + 1) _
    (loopEntry handle pktsize s buf).2 hp (by omega)
  obtain ⟨hsorted, hall, hleft, hlast, htsbufp⟩ := hloop.spec hsize hp
  obtain ⟨hkept, hsynced⟩ := carryOver_spec hleft hlast (htsbufp.trans hzero)
  rw [dvbDmxSwfilterSized_of_reaches h]
  exact ⟨hkept, hsynced, starts, _, _, hloop, rfl, hsorted, fun a ha => (hall a ha).2⟩

/-- The other buffers are added to what has been kept. -/
theorem resync_of_not_reaches (handle : σ → TsPacket → σ) (h : ¬ ReachesLoop pktsize s buf) :
    (dvbDmxSwfilterSized handle pktsize s buf).tsbufp < pktsize ∧
      (Synced s → Synced (dvbDmxSwfilterSized handle pktsize s buf)) := by
  obtain ⟨hkept, hshort⟩ := not_or.mp h
  rw [dvbDmxSwfilterSized_of_not_reaches h]
  refine ⟨?_, fun hsynced _ => ?_⟩
  · change s.tsbufp + buf.length < pktsize
    omega
  · change s.tsbuf.write s.tsbufp buf 0 = 0x47
    rw [Mem.write_apply_of_lt _ _ (Nat.pos_of_ne_zero hkept)]
    exact hsynced hkept

/-- **Resynchronisation** on any bytes: the main loop terminates, the packets that it hands on are ahead of
one another in the buffer, and what is kept is less than a packet and begins with the sync byte. -/
theorem swfilter_resync (handle : σ → TsPacket → σ) (s : SwFilter σ) (buf : List UInt8)
    (hsize : pktsize = 188 ∨ pktsize = 204) (hs : s.tsbufp < pktsize) :
    (dvbDmxSwfilterSized handle pktsize s buf).tsbufp < pktsize ∧
      (Synced s → Synced (dvbDmxSwfilterSized handle pktsize s buf)) ∧
      (ReachesLoop pktsize s buf →
        Synced (dvbDmxSwfilterSized handle pktsize s buf) ∧
          ∃ starts p s', Loop handle buf pktsize (loopEntry handle pktsize s buf).1
              (loopEntry handle pktsize s buf).2 starts p s' ∧
            dvbDmxSwfilterSized handle pktsize s buf = carryOver buf pktsize p s' ∧
            starts.Pairwise (· < ·) ∧
            ∀ a ∈ starts, isSync pktsize (buf.getD a 0) = true ∧ a + pktsize ≤ buf.length) := by
  have hpos : 0 < pktsize := by rcases hsize with rfl | rfl <;> decide
  by_cases hreaches : ReachesLoop pktsize s buf
  · obtain ⟨hkept, hsynced, hloop⟩ := resync_of_reaches handle hpos hreaches
    exact ⟨hkept, fun _ => hsynced, fun _ => ⟨hsynced, hloop⟩⟩
  · obtain ⟨hkept, hsynced⟩ := resync_of_not_reaches handle hreaches
    exact ⟨hkept, hsynced, fun h => absurd h hreaches⟩

/-- Garbage in front of a sync byte, and less than a packet behind it. -/
theorem swfilter_resync_garbage :
    (dvbDmxSwfilterSized (fun n _ => n + 1) 188 ⟨0, fun _ => 0, 0⟩ [0x00, 0x47, 0x10]).tsbufp < 188 ∧
      Synced (dvbDmxSwfilterSized (fun n _ => n + 1) 188 ⟨0, fun _ => 0, 0⟩ [0x00, 0x47, 0x10]) := by
  obtain ⟨hkept, -, hloop⟩ := @swfilter_resync ℕ 188 (fun n _ => n + 1) ⟨0, fun _ => 0, 0⟩ [0x00, 0x47, 0x10]
    (Or.inl rfl) (by decide)
  exact ⟨hkept, (hloop (Or.inl rfl)).1⟩

end Demux
end TbsMedia
