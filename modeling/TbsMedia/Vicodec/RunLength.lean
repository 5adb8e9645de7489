import Mathlib.Data.Fintype.Basic
import Mathlib.Data.List.TakeWhile
import Mathlib.Tactic.FinCases
import Mathlib.Tactic.Linarith
import Mathlib.Tactic.Positivity
import TbsMedia.Vicodec.Fwht

/-!
# Coded blocks can be decoded

A word has twelve bits for a coefficient.  The transforms of samples and of differences of samples are
small enough to be in that range once they are quantised, so that `derlc` finds what `rlc` has written.

* `Reads`: the words at a position of the payload.
* `codedIntra_inRange`, `codedInter_inRange`: the quantised coefficients.
* `derlc_rlc`: `derlc` is a left inverse of `rlc`.
* `dequantize_quantize`: the decoder rebuilds the coefficients that the encoder has kept.
-/

namespace TbsMedia
namespace Vicodec

open Lib

/-! ## Ranges -/

/-- The numbers that twelve bits stand for. -/
def InRange (v : ℤ) : Prop := -2048 ≤ v ∧ v ≤ 2047

/-- **How large a transform of eight values is**: the first value enters every sum with its own sign. -/
theorem stages_bounds (add c a b : ℤ) {tmp : Fin 8 → ℤ} (hadd : add = 2 * c) (hba : b ≤ a)
    (h : ∀ k, -a ≤ tmp k - c ∧ tmp k - c ≤ b) (k : Fin 8) :
    -(8 * a) ≤ stages add tmp k ∧ stages add tmp k ≤ b + 7 * a := by
  have h0 := h 0
  have h1 := h 1
  have h2 := h 2
  have h3 := h 3
  have h4 := h 4
  have h5 := h 5
  have h6 := h 6
  have h7 := h 7
  subst hadd
  fin_cases k <;> simp [stages] <;> omega

theorem rowPass_bounds (add c a b : ℤ) {tmp : Block} (hadd : add = 2 * c) (hba : b ≤ a) (ha : a ≤ 4096)
    (hb : b + 7 * a ≤ 32767) (h : ∀ y x, -a ≤ tmp.at y x - c ∧ tmp.at y x - c ≤ b) (y x : Fin 8) :
    -(8 * a) ≤ (rowPass add tmp).at y x ∧ (rowPass add tmp).at y x ≤ b + 7 * a := by
  have hs := stages_bounds add c a b hadd hba (h y) x
  unfold rowPass
  rw [Block.at_ofFn, s16_eq (by omega) (by omega)]
  exact hs

theorem columnPass_bounds (a b : ℤ) {out : Block} (hba : b ≤ a) (ha : a ≤ 4096) (hb : b + 7 * a ≤ 32767)
    (h : ∀ y x, -a ≤ out.at y x ∧ out.at y x ≤ b) (y x : Fin 8) :
    -(8 * a) ≤ (columnPass out).at y x ∧ (columnPass out).at y x ≤ b + 7 * a := by
  have hcol : ∀ k, -a ≤ out.at k x - 0 ∧ out.at k x - 0 ≤ b := fun k => by simpa using h k x
  have hs := stages_bounds 0 0 a b rfl hba hcol y
  unfold columnPass
  rw [Block.at_ofFn, s16_eq (by omega) (by omega)]
  exact hs

theorem fwht_bounds (m : Mem UInt8) (block stride inputStep : ℕ) (y x : Fin 8) :
    -8192 ≤ (fwht m block stride inputStep true).at y x ∧
      (fwht m block stride inputStep true).at y x ≤ 8191 := by
  have hsample : ∀ y x : Fin 8,
      -128 ≤ (Block.ofFn fun y x => ((m (block + y * stride + x * tapStep inputStep)).toNat : ℤ)).at y x - 128 ∧
        (Block.ofFn fun y x => ((m (block + y * stride + x * tapStep inputStep)).toNat : ℤ)).at y x - 128 ≤
          127 := fun y x => by
    have hlt := (m (block + y * stride + x * tapStep inputStep)).toNat_lt
    rw [Block.at_ofFn]
    omega
  have hrow := rowPass_bounds 256 128 128 127 (by decide) (by decide) (by decide) (by decide) hsample
  exact columnPass_bounds 1024 1023 (by decide) (by decide) (by decide) hrow y x

theorem fwht16_bounds {block : Block} (h : ∀ y x, -255 ≤ block.at y x ∧ block.at y x ≤ 255) (y x : Fin 8) :
    -16320 ≤ (fwht16 block).at y x ∧ (fwht16 block).at y x ≤ 16320 := by
  have hrow := rowPass_bounds 0 0 255 255 (by decide) (by decide) (by decide) (by decide) fun y x => by
    simpa using h y x
  exact columnPass_bounds 2040 2040 (by decide) (by decide) (by decide) hrow y x

/-- A quantised coefficient is in range if a coefficient quantised by less is. -/
theorem quantizeCoeff_inRange {quant q qp : ℕ} (hq : q ≤ quant) {coeff : ℤ}
    (h : InRange (coeff / 2 ^ q)) : InRange (quantizeCoeff quant qp coeff) := by
  obtain ⟨d, rfl⟩ := Nat.exists_eq_add_of_le hq
  have hdiv : coeff / 2 ^ (q + d) = coeff / 2 ^ q / 2 ^ d := by
    rw [pow_add, Int.ediv_ediv_of_nonneg (by positivity)]
  have hpos : (1 : ℤ) ≤ 2 ^ d := one_le_pow₀ (by decide)
  unfold quantizeCoeff InRange
  dsimp only
  split_ifs
  · omega
  · rw [hdiv]
    exact ⟨(Int.le_ediv_iff_mul_le (by omega)).2 (by nlinarith [h.1]),
      (Int.ediv_le_iff_le_mul (by omega)).2 (by nlinarith [h.2])⟩

theorem quantTable_two_le (y x : Fin 8) : 2 ≤ quantTable y x := by
  revert y x
  decide

theorem quantTableP_three_le (y x : Fin 8) : 3 ≤ quantTableP y x := by
  revert y x
  decide

/-- **The coefficients of an intra block have twelve bits.** -/
theorem codedIntra_inRange (m : Mem UInt8) (block stride inputStep qp : ℕ) (y x : Fin 8) :
    InRange ((quantizeIntra qp (fwht m block stride inputStep true)).1.at y x) := by
  have hb := fwht_bounds m block stride inputStep y x
  unfold quantizeIntra quantize
  rw [Block.at_ofFn]
  refine quantizeCoeff_inRange (quantTable_two_le y x) ?_
  unfold InRange
  omega

/-- **So have those of an inter block.** -/
theorem codedInter_inRange {deltas : Block} (h : ∀ y x, -255 ≤ deltas.at y x ∧ deltas.at y x ≤ 255)
    (qp : ℕ) (y x : Fin 8) : InRange ((quantizeInter qp (fwht16 deltas)).1.at y x) := by
  have hb := fwht16_bounds h y x
  unfold quantizeInter quantize
  rw [Block.at_ofFn]
  refine quantizeCoeff_inRange (quantTableP_three_le y x) ?_
  unfold InRange
  omega

/-- The decoder rebuilds the coefficients that the encoder has kept. -/
theorem dequantize_quantize (quant : Fin 8 → Fin 8 → ℕ) (qp : ℕ) (coeff : Block) :
    dequantize quant (quantize quant qp coeff).1 = (quantize quant qp coeff).2 := by
  refine Block.ext fun y x => ?_
  unfold dequantize quantize
  simp only [Block.at_ofFn]
  unfold quantizeCoeff quantizeDeCoeff
  dsimp only
  split_ifs
  · rw [zero_mul]
    rfl
  · rfl

/-! ## Words in the payload -/

/-- The payload has these words from word `pos` on. -/
inductive Reads (data : Mem UInt8) : ℕ → List ℕ → Prop
  | nil (pos : ℕ) : Reads data pos []
  | cons {pos w : ℕ} {ws : List ℕ} : ntohs data pos = w → Reads data (pos + 1) ws →
      Reads data pos (w :: ws)

theorem reads_cons {data : Mem UInt8} {pos w : ℕ} {ws : List ℕ} :
    Reads data pos (w :: ws) ↔ ntohs data pos = w ∧ Reads data (pos + 1) ws := by
  constructor
  · intro h
    cases h with
    | cons hw hws => exact ⟨hw, hws⟩
  · exact fun h => Reads.cons h.1 h.2

theorem reads_append {data : Mem UInt8} {pos : ℕ} {ws ws' : List ℕ} :
    Reads data pos (ws ++ ws') ↔ Reads data pos ws ∧ Reads data (pos + ws.length) ws' := by
  induction ws generalizing pos with
  | nil => exact ⟨fun h => ⟨Reads.nil pos, h⟩, fun h => h.2⟩
  | cons w ws ih =>
    have hpos : pos + (ws.length + 1) = pos + 1 + ws.length := by omega
    rw [List.cons_append, reads_cons, reads_cons, ih, List.length_cons, hpos, and_assoc]

/-! ## Runs -/

theorem runWord_mod {cnt : ℕ} (hcnt : cnt ≤ 14) (v : ℤ) : runWord cnt v % 16 = cnt := by
  unfold runWord
  omega

theorem runWord_coeff {cnt : ℕ} (hcnt : cnt ≤ 14) {v : ℤ} (hv : InRange v) :
    s16 (runWord cnt v) / 16 = v := by
  obtain ⟨hlo, hhi⟩ := hv
  unfold runWord s16
  omega

/-- One word of a run is expanded to what it stands for. -/
theorem decodeRuns_runWord {data : Mem UInt8} {endOfInput : ℤ} {s : RunState} {cnt : ℕ} {v : ℤ}
    (hcnt : cnt ≤ 14) (hv : InRange v) (hword : ntohs data s.input = runWord cnt v)
    (hdec : s.decCount < 64) (hend : (s.input : ℤ) ≤ endOfInput) :
    decodeRuns data endOfInput s = decodeRuns data endOfInput
      ⟨s.input + 1, s.decCount + cnt + 1, s.block ++ List.replicate cnt 0 ++ [v],
        s.reads ++ [2 * s.input, 2 * s.input + 1]⟩ := by
  have hmod : ntohs data s.input % 16 = cnt := by rw [hword, runWord_mod hcnt]
  rw [decodeRuns, if_pos hdec, if_neg (not_lt.2 hend), if_neg (by omega)]
  unfold RunState.expand
  dsimp only
  rw [hmod, hword, runWord_coeff hcnt hv]

/-- **The loop of `derlc` expands the words of a run of values**, of which `cnt` zeros have been counted
before. -/
theorem decodeRuns_encodeRuns {data : Mem UInt8} {endOfInput : ℤ} {l : List ℤ} (hl : ∀ v ∈ l, InRange v)
    {cnt : ℕ} (hcnt : cnt ≤ 14) (hne : l = [] → cnt = 0) {s : RunState}
    (hwords : Reads data s.input (encodeRuns cnt l))
    (hend : ((s.input + (encodeRuns cnt l).length : ℕ) : ℤ) ≤ endOfInput + 1)
    (hdec : s.decCount + cnt + l.length ≤ 64) :
    ∃ reads, decodeRuns data endOfInput s = decodeRuns data endOfInput
      ⟨s.input + (encodeRuns cnt l).length, s.decCount + cnt + l.length,
        s.block ++ (List.replicate cnt 0 ++ l), reads⟩ := by
  induction l generalizing cnt s with
  | nil =>
    obtain rfl := hne rfl
    exact ⟨s.reads, by simp [encodeRuns]⟩
  | cons v l ih =>
    have hzero : InRange 0 := ⟨by decide, by decide⟩
    rw [List.length_cons] at hdec
    by_cases hrun : v = 0 ∧ cnt < 14
    · obtain ⟨rfl, hlt⟩ := hrun
      by_cases hlast : l = []
      · -- the run ends with the last value
        subst hlast
        rw [encodeRuns, if_pos ⟨rfl, hlt⟩, if_pos rfl] at hwords hend ⊢
        rw [List.length_singleton] at hend
        have hstep := @decodeRuns_runWord data endOfInput s cnt 0 hcnt hzero (reads_cons.1 hwords).1 (by omega)
          (by push_cast at hend; omega)
        exact ⟨_, by rw [hstep, List.append_assoc]; rfl⟩
      · rw [encodeRuns, if_pos ⟨rfl, hlt⟩, if_neg hlast] at hwords hend ⊢
        obtain ⟨reads, hih⟩ := @ih (fun w hw => hl w (List.mem_cons_of_mem _ hw)) (cnt + 1)
          (by omega) (fun h => absurd h hlast) _ hwords hend (by omega)
        refine ⟨reads, hih.trans ?_⟩
        have hcount : s.decCount + (cnt + 1) + l.length = s.decCount + cnt + (l.length + 1) := by omega
        rw [hcount, List.length_cons, List.replicate_succ', List.append_assoc]
        rfl
    · rw [encodeRuns, if_neg hrun] at hwords hend ⊢
      rw [List.length_cons] at hend
      obtain ⟨hword, hrest⟩ := reads_cons.1 hwords
      have hstep := @decodeRuns_runWord data endOfInput s cnt v hcnt (hl v List.mem_cons_self) hword
        (by omega) (by push_cast at hend; omega)
      obtain ⟨reads, hih⟩ := @ih (fun w hw => hl w (List.mem_cons_of_mem _ hw)) 0 (Nat.zero_le _)
        (fun _ => rfl) ⟨s.input + 1, s.decCount + cnt + 1, s.block ++ List.replicate cnt 0 ++ [v],
          s.reads ++ [2 * s.input, 2 * s.input + 1]⟩ hrest
        (by dsimp only; push_cast at hend ⊢; omega) (by dsimp only; omega)
      refine ⟨reads, (hstep.trans hih).trans ?_⟩
      dsimp only
      have hinput : s.input + 1 + (encodeRuns 0 l).length = s.input + ((encodeRuns 0 l).length + 1) := by
        omega
      have hcount : s.decCount + cnt + 1 + 0 + l.length = s.decCount + cnt + (l.length + 1) := by omega
      have hblock : s.block ++ List.replicate cnt 0 ++ [v] ++ (List.replicate 0 0 ++ l) =
          s.block ++ (List.replicate cnt 0 ++ v :: l) := by simp
      rw [hinput, hcount, hblock, List.length_cons, List.length_cons]

/-! ## Blocks -/

/-- A scan is what is encoded of it and the zeros it ends with. -/
theorem take_append_zeros (l : List ℤ) :
    l.take (l.length - lastzeroRun l) ++ List.replicate (lastzeroRun l) 0 = l := by
  have hsplit : l = (l.reverse.dropWhile (· = 0)).reverse ++ (l.reverse.takeWhile (· = 0)).reverse := by
    rw [← List.reverse_append, List.takeWhile_append_dropWhile, List.reverse_reverse]
  have hzeros : (l.reverse.takeWhile (· = 0)).reverse = List.replicate (lastzeroRun l) 0 := by
    rw [List.eq_replicate_iff]
    refine ⟨by rw [List.length_reverse, lastzeroRun], fun v hv => ?_⟩
    simpa using List.mem_takeWhile_imp (List.mem_reverse.1 hv)
  have hlen : l.length - lastzeroRun l = (l.reverse.dropWhile (· = 0)).reverse.length := by
    have h := congrArg List.length hsplit
    rw [List.length_append, hzeros, List.length_replicate] at h
    omega
  have htake : l.take (l.reverse.dropWhile (· = 0)).reverse.length =
      (l.reverse.dropWhile (· = 0)).reverse :=
    (List.prefix_iff_eq_take.1 ⟨_, hsplit.symm⟩).symm
  rw [hlen, htake, ← hzeros]
  exact hsplit.symm

theorem lastzeroRun_le (l : List ℤ) : lastzeroRun l ≤ l.length := by
  unfold lastzeroRun
  exact (List.takeWhile_prefix _).length_le.trans (List.length_reverse ..).le

/-- **The words behind a header are expanded to the scan they stand for.** -/
theorem decodeRuns_rlcPayload {data : Mem UInt8} {endOfInput : ℤ} {l : List ℤ} (hlen : l.length = 64)
    (hl : ∀ v ∈ l, InRange v) {pos : ℕ} (hwords : Reads data pos (rlcPayload l))
    (hend : ((pos + (rlcPayload l).length : ℕ) : ℤ) ≤ endOfInput + 1) (reads : List ℕ) :
    ∃ s, decodeRuns data endOfInput ⟨pos, 0, [], reads⟩ = (true, s) ∧ s.block = l ∧
      s.input = pos + (rlcPayload l).length := by
  have hrange : ∀ n, ∀ v ∈ l.take n, InRange v := fun n v hv => hl v (List.mem_of_mem_take hv)
  unfold rlcPayload at hwords hend ⊢
  dsimp only at hwords hend ⊢
  by_cases hrun : 14 < lastzeroRun l
  · rw [if_pos hrun, if_pos hrun] at hwords hend ⊢
    rw [List.length_append, List.length_singleton] at hend ⊢
    obtain ⟨hcoded, hlast⟩ := reads_append.1 hwords
    have hmark := (reads_cons.1 hlast).1
    have htake : (l.take (8 * 8 - lastzeroRun l)).length = 64 - lastzeroRun l := by
      rw [List.length_take]
      omega
    obtain ⟨reads', hstep⟩ := @decodeRuns_encodeRuns _ endOfInput _
      (hrange (8 * 8 - lastzeroRun l)) 0 (Nat.zero_le _) (fun _ => rfl) ⟨pos, 0, [], reads⟩ hcoded
      (by dsimp only; push_cast at hend ⊢; omega) (by dsimp only; omega)
    dsimp only at hstep
    rw [htake, List.nil_append, List.replicate_zero, List.nil_append] at hstep
    rw [hstep, decodeRuns, if_pos (by dsimp only; omega),
      if_neg (by dsimp only; push_cast at hend ⊢; omega), if_pos (by rw [hmark]; rfl)]
    refine ⟨_, rfl, ?_, rfl⟩
    unfold RunState.fill
    dsimp only
    have hle := lastzeroRun_le l
    have hsub : 64 - (0 + 0 + (64 - lastzeroRun l)) = lastzeroRun l := by omega
    have hsplit := take_append_zeros l
    rw [hlen] at hsplit
    rw [hsub]
    exact hsplit
  · rw [if_neg hrun, if_neg hrun, List.append_nil] at hwords hend ⊢
    have htake : l.take (8 * 8 - 0) = l := List.take_of_length_le hlen.le
    rw [htake] at hwords hend ⊢
    obtain ⟨reads', hstep⟩ := @decodeRuns_encodeRuns _ endOfInput _ hl 0 (Nat.zero_le _)
      (fun _ => rfl) ⟨pos, 0, [], reads⟩ hwords hend (by dsimp only; omega)
    dsimp only at hstep
    rw [hlen, List.nil_append, List.replicate_zero, List.nil_append] at hstep
    rw [hstep, decodeRuns, if_neg (by dsimp only; omega)]
    exact ⟨_, rfl, rfl, rfl⟩

theorem Block.at_set (b : Block) (y x y' x' : Fin 8) (v : ℤ) :
    (b.set y x v).at y' x' = if y' = y ∧ x' = x then v else b.at y' x' := by
  unfold Block.set Block.at
  by_cases hy : y' = y
  · subst hy
    by_cases hx : x' = x
    · subst hx
      simp
    · rw [if_neg fun h => hx h.2]
      simp [Fin.val_inj, Ne.symm hx]
  · rw [if_neg fun h => hy h.1]
    simp [Fin.val_inj, Ne.symm hy]

/-- **The zigzag order is undone.** -/
theorem unscan_scan (b dwhtOut : Block) : unscan dwhtOut b.scan = b := by
  have hfold : ∀ (l : List (Fin 8 × Fin 8)) (out : Block) (y x : Fin 8),
      ((l.map fun p => (p, b.at p.1 p.2)).foldl
        (fun (out : Block) p => out.set p.1.1 p.1.2 p.2) out).at y x =
        if (y, x) ∈ l then b.at y x else out.at y x := by
    intro l
    induction l with
    | nil => exact fun out y x => (if_neg (by simp)).symm
    | cons q l ih =>
      intro out y x
      rw [List.map_cons, List.foldl_cons, ih, Block.at_set]
      by_cases hmem : (y, x) ∈ l
      · rw [if_pos hmem, if_pos (List.mem_cons_of_mem _ hmem)]
      · by_cases hq : y = q.1 ∧ x = q.2
        · obtain ⟨rfl, rfl⟩ := hq
          rw [if_neg hmem, if_pos ⟨rfl, rfl⟩, if_pos List.mem_cons_self]
        · rw [if_neg hmem, if_neg hq, if_neg]
          rw [List.mem_cons, not_or, Prod.ext_iff]
          exact ⟨hq, hmem⟩
  have hzip : ∀ l : List (Fin 8 × Fin 8), l.zip (l.map fun p => b.at p.1 p.2) =
      l.map fun p => (p, b.at p.1 p.2) := by
    intro l
    induction l with
    | nil => rfl
    | cons q l ih => rw [List.map_cons, List.map_cons, List.zip_cons_cons, ih]
  refine Block.ext fun y x => ?_
  unfold unscan Block.scan
  rw [hzip, hfold zigzag dwhtOut y x, if_pos]
  revert y x
  decide

/-- **`derlc` is a left inverse of `rlc`**, also when duplicates are counted in the header. -/
theorem derlc_rlc {data : Mem UInt8} {pos hdr : ℕ} {b : Block} (hb : ∀ y x, InRange (b.at y x))
    (coeffs : Block) {endOfInput : ℤ} {ws : List ℕ} (hws : ws = rlcPayload b.scan)
    (hwords : Reads data pos (hdr :: ws))
    (hend : ((pos + (hdr :: ws).length : ℕ) : ℤ) ≤ endOfInput + 1) :
    (derlc data pos coeffs endOfInput).stat = hdr ∧ (derlc data pos coeffs endOfInput).dwhtOut = b ∧
      (derlc data pos coeffs endOfInput).rlcIn = pos + (hdr :: ws).length := by
  have hscan : ∀ v ∈ b.scan, InRange v := fun v hv => by
    obtain ⟨q, -, rfl⟩ := List.mem_map.1 hv
    exact hb q.1 q.2
  rw [List.length_cons] at hend ⊢
  have hend' : ((pos + 1 + ws.length : ℕ) : ℤ) ≤ endOfInput + 1 := by
    push_cast at hend ⊢
    omega
  obtain ⟨hhdr, hpayload⟩ := reads_cons.1 hwords
  rw [hws] at hpayload hend'
  obtain ⟨s, hs, hblock, hinput⟩ :=
    decodeRuns_rlcPayload (length_scan b) hscan hpayload hend' [2 * pos, 2 * pos + 1]
  rw [← hws] at hinput
  unfold derlc
  rw [if_neg (by push_cast at hend; omega)]
  dsimp only
  rw [hs]
  dsimp only
  rw [if_pos rfl]
  refine ⟨hhdr, ?_, ?_⟩
  · dsimp only
    rw [hblock, unscan_scan]
  · dsimp only
    rw [hinput]
    omega

/-- **The run-length code of a block comes back**, whatever is behind it: the coefficients, the block type,
and the number of words. -/
theorem rlc_roundTrip {data : Mem UInt8} {pos : ℕ} {b : Block} (hb : ∀ y x, InRange (b.at y x)) (t : Blocktype)
    (coeffs : Block) {endOfInput : ℤ} (hwords : Reads data pos (rlc b t))
    (hend : ((pos + (rlc b t).length : ℕ) : ℤ) ≤ endOfInput + 1) :
    (derlc data pos coeffs endOfInput).dwhtOut = b ∧
      (derlc data pos coeffs endOfInput).stat &&& PFRAME_BIT = (if t = .pblock then PFRAME_BIT else 0) ∧
      (derlc data pos coeffs endOfInput).rlcIn = pos + (rlc b t).length := by
  obtain ⟨hstat, hout, hin⟩ := derlc_rlc hb coeffs rfl hwords hend
  refine ⟨hout, ?_, hin⟩
  rw [hstat]
  cases t with
  | pblock => rfl
  | iblock => rfl

theorem rlc_roundTrip_dc : (derlc (Mem.ofList 0xff [0x80, 0, 0x80, 0, 0, 15]) 0 (.ofFn fun _ _ => 7) 2).dwhtOut =
    (.ofFn fun y x => if y = 0 ∧ x = 0 then -2048 else 0) := by
  have hwords : rlc (.ofFn fun y x => if y = 0 ∧ x = 0 then -2048 else 0) .pblock = [0x8000, 0x8000, 15] := by
    decide +kernel
  refine (rlc_roundTrip (fun y x => ?_) .pblock _ ?_ ?_).1
  · rw [Block.at_ofFn]
    split_ifs
    · exact ⟨by decide, by decide⟩
    · exact ⟨by decide, by decide⟩
  · rw [hwords]
    exact .cons rfl (.cons rfl (.cons rfl (.nil _)))
  · rw [hwords]
    decide

end Vicodec
end TbsMedia
