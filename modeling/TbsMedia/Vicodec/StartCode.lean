import Mathlib.Data.List.GetD
import Mathlib.Tactic.IntervalCases
import TbsMedia.Vicodec.Encode

/-!
# No start code in the payload

A compressed frame starts with eight magic bytes, the last four of them all ones.  Four such bytes in the
payload would cover an aligned word of all ones.

* `Harmless`: a word that is not all ones.
* `not_magic_infix`: the magic bytes occur nowhere in what `fwht_encode_frame` writes.
-/

namespace TbsMedia
namespace Vicodec

open Lib

/-- `FWHT_MAGIC1` and `FWHT_MAGIC2`. -/
def FWHT_MAGIC : List UInt8 := [0x4f, 0x4f, 0x4f, 0x4f, 0xff, 0xff, 0xff, 0xff]

/-- A word that is not all ones. -/
def Harmless (w : ℕ) : Prop := w % 65536 ≠ 0xffff

theorem harmless_of_mod_sixteen {w : ℕ} (h : w % 16 ≠ 15) : Harmless w := by
  unfold Harmless
  omega

theorem harmless_of_even {w : ℕ} (h : w % 2 = 0) : Harmless w := by
  unfold Harmless
  omega

/-! ## The words of a block -/

theorem header_even (t : Blocktype) : header t % 2 = 0 := by
  cases t <;> rfl

theorem runWord_mod_sixteen (cnt : ℕ) (tmp : ℤ) : runWord cnt tmp % 16 = cnt % 16 := by
  unfold runWord
  omega

theorem runWord_harmless {cnt : ℕ} (h : cnt ≤ 14) (tmp : ℤ) : Harmless (runWord cnt tmp) := by
  refine harmless_of_mod_sixteen ?_
  rw [runWord_mod_sixteen]
  omega

theorem encodeRuns_harmless {cnt : ℕ} (hcnt : cnt ≤ 14) (block : List ℤ) :
    ∀ w ∈ encodeRuns cnt block, Harmless w := by
  induction block generalizing cnt with
  | nil => simp [encodeRuns]
  | cons tmp rest ih =>
    intro w hw
    rw [encodeRuns] at hw
    split_ifs at hw with hrun hrest
    · rw [List.mem_singleton.1 hw]
      exact runWord_harmless hcnt 0
    · exact ih (by omega) w hw
    · rcases List.mem_cons.1 hw with rfl | hw
      · exact runWord_harmless hcnt tmp
      · exact ih (Nat.zero_le _) w hw

theorem rlcPayload_harmless (block : List ℤ) : ∀ w ∈ rlcPayload block, Harmless w := by
  intro w hw
  unfold rlcPayload at hw
  rcases List.mem_append.1 hw with hw | hw
  · exact encodeRuns_harmless (Nat.zero_le _) _ w hw
  · split_ifs at hw
    · rw [List.mem_singleton.1 hw]
      unfold Harmless ALL_ZEROS
      omega
    · simp at hw

theorem rlc_harmless (b : Block) (t : Blocktype) : ∀ w ∈ rlc b t, Harmless w := by
  intro w hw
  rcases List.mem_cons.1 hw with rfl | hw
  · exact harmless_of_even (header_even t)
  · exact rlcPayload_harmless _ w hw

/-! ## Blocks merged and written one behind the other -/

/-- All words are harmless, and the last block, which has `lastSize` words, starts with an even one. -/
structure Written (rlco : List ℕ) (lastSize : ℕ) : Prop where
  harmless : ∀ w ∈ rlco, Harmless w
  le : lastSize ≤ rlco.length
  even : 0 < lastSize → rlco.getD (rlco.length - lastSize) 0 % 2 = 0

theorem Written.start {rlco : List ℕ} (h : ∀ w ∈ rlco, Harmless w) : Written rlco 0 :=
  ⟨h, Nat.zero_le _, fun h => absurd h (lt_irrefl _)⟩

/-- A block written behind the others. -/
theorem Written.append {rlco words : List ℕ} (h : ∀ w ∈ rlco, Harmless w) (hw : ∀ w ∈ words, Harmless w)
    (heven : words.headD 0 % 2 = 0) : Written (rlco ++ words) words.length := by
  refine ⟨fun w hm => ?_, by simp, fun _ => ?_⟩
  · rcases List.mem_append.1 hm with hm | hm
    · exact h w hm
    · exact hw w hm
  · rw [List.length_append, Nat.add_sub_cancel, List.getD_append_right _ _ _ _ (le_refl _), Nat.sub_self]
    cases words <;> exact heven

/-- A duplicate counted in the header of the last block. -/
theorem Written.count {rlco : List ℕ} {size : ℕ} (h : Written rlco size) (hpos : 0 < size) :
    Written (rlco.set (rlco.length - size) ((rlco.getD (rlco.length - size) 0 + 2) % 65536)) size := by
  have heven := h.even hpos
  have hlt : rlco.length - size < rlco.length := by
    have := h.le
    omega
  refine ⟨fun w hm => ?_, by rw [List.length_set]; exact h.le, fun _ => ?_⟩
  · rcases List.mem_or_eq_of_mem_set hm with hm | rfl
    · exact h.harmless w hm
    · exact harmless_of_even (by omega)
  · rw [List.length_set, List.getD_eq_getElem _ _ (by rwa [List.length_set]), List.getElem_set_self]
    omega

theorem emit_written {rlco words : List ℕ} {lastSize : ℕ} (h : Written rlco lastSize)
    (hw : ∀ w ∈ words, Harmless w) (heven : words.headD 0 % 2 = 0) (hpos : 0 < words.length) :
    Written (emit rlco lastSize words) words.length := by
  unfold emit
  dsimp only
  split_ifs with hsame hhdr
  · obtain ⟨rfl, -⟩ := hsame
    exact h.count hpos
  · exact Written.append h.harmless hw heven
  · exact Written.append h.harmless hw heven

/-- **The loops of `encode_plane` write harmless words only.** -/
theorem encodeBlocks_harmless (p : EncodeParams) (columns : ℕ) (rlcoMax : ℤ) (ks : List ℕ)
    {s : EncodeState} (h : Written s.rlco s.lastSize) :
    ∀ w ∈ (encodeBlocks p columns rlcoMax ks s).2.rlco, Harmless w := by
  induction ks generalizing s with
  | nil => exact h.harmless
  | cons k ks ih =>
    have hstep : Written (encodeBlock p columns s k).rlco (encodeBlock p columns s k).lastSize :=
      emit_written h (rlc_harmless _ _) (header_even _) (Nat.succ_pos _)
    rw [encodeBlocks]
    split_ifs
    · exact hstep.harmless
    · exact ih hstep

/-! ## Samples that are copied -/

theorem rawBytes_ne {p : EncodeParams} {height width : ℕ} : ∀ b ∈ rawBytes p height width, b ≠ 0xff := by
  intro b hb
  unfold rawBytes at hb
  obtain ⟨j, -, hb⟩ := List.mem_flatMap.1 hb
  obtain ⟨i, -, rfl⟩ := List.mem_map.1 hb
  dsimp only
  split_ifs with h
  · decide
  · exact h

theorem beWords_harmless (bytes : List UInt8) (h : ∀ b ∈ bytes, b ≠ 0xff) :
    ∀ w ∈ beWords bytes, Harmless w := by
  induction bytes using beWords.induct with
  | case1 hi lo bytes ih =>
    intro w hw
    rw [beWords, List.mem_cons] at hw
    rcases hw with rfl | hw
    · have hlo : lo.toNat ≠ 255 := fun heq => h lo (by simp) (UInt8.toNat_inj.1 heq)
      have hlt : lo.toNat < 256 := lo.toNat_lt
      unfold Harmless
      omega
    · exact ih (fun b hb => h b (by simp [hb])) w hw
  | case2 bytes hshort =>
    intro w hw
    rw [beWords] at hw
    · simp at hw
    · exact hshort

theorem encodePlane_harmless (p : EncodeParams) (ref : Mem UInt8) {rlco : List ℕ} (rlcoMax : ℤ)
    (height width : ℕ) (h : ∀ w ∈ rlco, Harmless w) :
    ∀ w ∈ (encodePlane p ref rlco rlcoMax height width).rlco, Harmless w := by
  unfold encodePlane
  dsimp only
  split_ifs
  · intro w hw
    rcases List.mem_append.1 hw with hw | hw
    · exact h w hw
    · exact beWords_harmless _ rawBytes_ne w hw
  · exact encodeBlocks_harmless p _ rlcoMax _ (Written.start h)

theorem fwhtEncodeFrame_harmless (p : FrameParams) (ref : Component → Mem UInt8) :
    ∀ w ∈ (fwhtEncodeFrame p ref).rlco, Harmless w := by
  have hfold : ∀ (cs : List Component) (s : FrameEncoding), (∀ w ∈ s.rlco, Harmless w) →
      ∀ w ∈ (cs.foldl (encodeComponent p) s).rlco, Harmless w := by
    intro cs
    induction cs with
    | nil => exact fun s h => h
    | cons c cs ih => exact fun s h => ih _ (encodePlane_harmless _ _ _ _ _ h)
  exact hfold _ _ (by simp)

/-! ## The bytes -/

/-- Two bytes of ones in one word make it a word of ones. -/
theorem not_harmless_of_bytes {w : ℕ} (hhi : UInt8.ofNat (w / 256) = 0xff) (hlo : UInt8.ofNat w = 0xff) :
    ¬Harmless w := by
  have hhi' : w / 256 % 256 = 255 := congrArg UInt8.toNat hhi
  have hlo' : w % 256 = 255 := congrArg UInt8.toNat hlo
  unfold Harmless
  omega

/-- **Harmless words have no three bytes of ones in a row.** -/
theorem not_ones_of_harmless {words : List ℕ} (h : ∀ w ∈ words, Harmless w) (k : ℕ) :
    ¬∀ i < 3, (payloadBytes words)[k + i]? = some 0xff := by
  intro hones
  -- one of the first two of the three bytes starts a word
  obtain ⟨m, i, hi, hm⟩ : ∃ m i, i < 2 ∧ k + i = 2 * m := ⟨(k + 1) / 2, k % 2, by omega, by omega⟩
  have hhi := hones i (by omega)
  have hlo := hones (i + 1) (by omega)
  rw [hm, (payloadBytes_getElem? words m).1, Option.map_eq_some_iff] at hhi
  rw [← Nat.add_assoc, hm, (payloadBytes_getElem? words m).2, Option.map_eq_some_iff] at hlo
  obtain ⟨w, hw, hhi⟩ := hhi
  obtain ⟨w', hw', hlo⟩ := hlo
  obtain rfl : w = w' := Option.some.inj (hw.symm.trans hw')
  exact not_harmless_of_bytes hhi hlo (h w (List.mem_of_getElem? hw))

/-- **The payload of a frame does not contain the magic bytes**, whatever the frame, the reference frame,
the quantisers and the layout of the planes are. -/
theorem not_magic_infix (p : FrameParams) (ref : Component → Mem UInt8) :
    ¬FWHT_MAGIC <:+: payloadBytes (fwhtEncodeFrame p ref).rlco := by
  rintro ⟨front, back, heq⟩
  refine not_ones_of_harmless (fwhtEncodeFrame_harmless p ref) (front.length + 4) fun i hi => ?_
  rw [← heq, List.append_assoc, Nat.add_assoc, List.getElem?_append_right (Nat.le_add_right _ _),
    Nat.add_sub_cancel_left, List.getElem?_append_left (by simp [FWHT_MAGIC]; omega)]
  interval_cases i <;> rfl

end Vicodec
end TbsMedia
