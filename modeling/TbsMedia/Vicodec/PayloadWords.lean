import Mathlib.Data.List.Infix
import TbsMedia.Vicodec.Decode

/-!
# The words of a payload

What a frame takes of its payload is said by a grammar on lists of words, without the decoder: a block is
a header and words with the length of a run, up to the word that fills the rest with zeros or to the last
coefficient; the header says how many copies follow, which take no words; a plane that is not compressed is
as many words as it has pairs of samples; and a frame is its planes one after the other.  The decoder takes
just these words if they are there.  Only the bound of a plane that is copied may be wrong, since it is a
product in 32 bits, so what the decoder takes are such words only for planes within bounds.

* `RunWords`, `BlockWords`, `FrameDecodeParams.FrameWords`: the grammar.
* `FrameDecodeParams.Complete`: the payload has the words of all planes.
* `FrameDecodeParams.Bounded`: no plane is copied whose words are not there.
* `FrameDecodeParams.FrameWords.decodeComponents`, `exists_frameWords`: the decoder and the grammar.
-/

namespace TbsMedia
namespace Vicodec

open Lib

/-! ## The words of a payload -/

/-- The words of a block behind its header, where so many coefficients are there already: words with the
length of a run and a coefficient, up to the word with the length 15 or to the last coefficient. -/
inductive RunWords : ℕ → List ℕ → Prop
  | full {n : ℕ} (hn : 64 ≤ n) : RunWords n []
  | rest {n w : ℕ} (hn : n < 64) (hw : w % 16 = 15) : RunWords n [w]
  | run {n w : ℕ} {ws : List ℕ} (hn : n < 64) (hw : w % 16 ≠ 15) (h : RunWords (n + w % 16 + 1) ws) :
      RunWords n (w :: ws)

/-- The words of so many blocks, the first of which are copies. -/
inductive BlockWords : ℕ → ℕ → List ℕ → Prop
  | done (copies : ℕ) : BlockWords 0 copies []
  | copy {n copies : ℕ} {ws : List ℕ} (h : BlockWords n copies ws) : BlockWords (n + 1) (copies + 1) ws
  | coded {n stat : ℕ} {ws ws' : List ℕ} (hstat : stat &&& OVERFLOW_BIT = 0) (hruns : RunWords 0 ws)
      (h : BlockWords n ((stat &&& DUPS_MASK) >>> 1) ws') : BlockWords (n + 1) 0 (stat :: (ws ++ ws'))

/-- The first words of a payload. -/
def payloadWords (data : Mem UInt8) (n : ℕ) : List ℕ := (List.range n).map (ntohs data)

/-- The rows of samples that are coded of a plane. -/
def FrameDecodeParams.rows (p : FrameDecodeParams) (c : Component) : ℕ := roundUp8 (p.planeSize c).2

/-- The columns of samples that are coded of a plane. -/
def FrameDecodeParams.columns (p : FrameDecodeParams) (c : Component) : ℕ := roundUp8 (p.planeSize c).1

/-- The words of a plane: its samples, or those of its blocks. -/
def FrameDecodeParams.PlaneWords (p : FrameDecodeParams) (c : Component) (ws : List ℕ) : Prop :=
  if p.uncompressed c then ws.length = p.rows c * (p.columns c / 2)
  else BlockWords (p.rows c / 8 * (p.columns c / 8)) 0 ws

/-- The words of planes, one after the other. -/
inductive FrameDecodeParams.FrameWords (p : FrameDecodeParams) : List Component → List ℕ → Prop
  | nil : p.FrameWords [] []
  | cons {c : Component} {cs : List Component} {ws ws' : List ℕ} (hc : p.PlaneWords c ws)
      (hcs : p.FrameWords cs ws') : p.FrameWords (c :: cs) (ws ++ ws')

/-- The words of the payload, up to `cf->size`. -/
def FrameDecodeParams.words (p : FrameDecodeParams) : List ℕ := payloadWords p.data (p.size / 2)

/-- The payload begins with the words of all planes. -/
def FrameDecodeParams.Complete (p : FrameDecodeParams) : Prop :=
  ∃ ws, p.FrameWords (components p.componentsNum) ws ∧ ws <+: p.words

/-- Planes from a word on are within bounds: where one of them is copied behind the words of those in front
of it, its words are there, so the product of width and height has not wrapped. -/
def FrameDecodeParams.BoundedAt (p : FrameDecodeParams) (cs : List Component) (pos : ℕ) : Prop :=
  ∀ cs₁ c cs₂ ws, cs = cs₁ ++ c :: cs₂ → p.FrameWords cs₁ ws → ws <+: p.words.drop pos →
    p.uncompressed c = true → pos + ws.length + u32 (p.columns c * p.rows c) / 2 ≤ p.size / 2 →
      pos + ws.length + p.rows c * (p.columns c / 2) ≤ p.size / 2

/-- The planes of the frame are within bounds. -/
def FrameDecodeParams.Bounded (p : FrameDecodeParams) : Prop :=
  p.BoundedAt (components p.componentsNum) 0

variable {data : Mem UInt8}

theorem length_payloadWords (data : Mem UInt8) (n : ℕ) : (payloadWords data n).length = n := by
  rw [payloadWords, List.length_map, List.length_range]

/-- The words from a position on begin with the word there. -/
theorem cons_prefix_drop_payloadWords {n pos w : ℕ} {ws : List ℕ} :
    w :: ws <+: (payloadWords data n).drop pos ↔
      pos < n ∧ ntohs data pos = w ∧ ws <+: (payloadWords data n).drop (pos + 1) := by
  by_cases hpos : pos < n
  · have hlt : pos < (payloadWords data n).length := by rwa [length_payloadWords]
    have hget : (payloadWords data n)[pos] = ntohs data pos := by simp [payloadWords]
    rw [List.drop_eq_getElem_cons hlt, List.cons_prefix_cons, hget]
    exact ⟨fun h => ⟨hpos, h.1.symm, h.2⟩, fun h => ⟨h.2.1.symm, h.2.2⟩⟩
  · rw [List.drop_eq_nil_of_le (by rw [length_payloadWords]; omega)]
    exact ⟨fun h => absurd (List.prefix_nil.1 h) (List.cons_ne_nil _ _), fun h => absurd h.1 hpos⟩

theorem append_prefix_drop {α : Type*} {l ws ws' : List α} {pos : ℕ} :
    ws ++ ws' <+: l.drop pos ↔ ws <+: l.drop pos ∧ ws' <+: l.drop (pos + ws.length) := by
  constructor
  · rintro ⟨rest, h⟩
    refine ⟨⟨ws' ++ rest, by rw [← h, List.append_assoc]⟩, rest, ?_⟩
    rw [← List.drop_drop, ← h, List.append_assoc, List.drop_left]
  · rintro ⟨⟨rest, h⟩, h'⟩
    rw [← List.drop_drop, ← h, List.drop_left] at h'
    rw [← h]
    exact (List.prefix_append_right_inj ws).2 h'

/-! ### One block -/

/-- The loop of `derlc` takes the words of a block. -/
theorem RunWords.decodeRuns {n e : ℕ} {ws : List ℕ} (h : RunWords n ws) {s : RunState}
    (hs : s.decCount = n) (hws : ws <+: (payloadWords data e).drop s.input) :
    (decodeRuns data (e - 1) s).1 = true ∧ (decodeRuns data (e - 1) s).2.input = s.input + ws.length := by
  induction h generalizing s with
  | full hn =>
    rw [Vicodec.decodeRuns, if_neg (by omega)]
    exact ⟨rfl, rfl⟩
  | rest hn hw =>
    obtain ⟨hlt, hword, -⟩ := cons_prefix_drop_payloadWords.1 hws
    rw [Vicodec.decodeRuns, if_pos (by omega), if_neg (by omega), if_pos (by rw [hword, hw])]
    exact ⟨rfl, rfl⟩
  | run hn hw _ ih =>
    obtain ⟨hlt, hword, htail⟩ := cons_prefix_drop_payloadWords.1 hws
    rw [Vicodec.decodeRuns, if_pos (by omega), if_neg (by omega), if_neg (by rw [hword]; exact hw)]
    have hnext := ih (s := s.expand data) (by rw [RunState.expand, hs, hword]) htail
    have hin : (s.expand data).input = s.input + 1 := rfl
    refine ⟨hnext.1, hnext.2.trans ?_⟩
    rw [List.length_cons, hin, Nat.add_assoc, Nat.add_comm 1]

/-- What the loop of `derlc` takes are the words of a block. -/
theorem exists_runWords {e : ℕ} {s : RunState} (h : (decodeRuns data (e - 1) s).1 = true) :
    ∃ ws, RunWords s.decCount ws ∧ ws <+: (payloadWords data e).drop s.input := by
  induction s using decodeRuns.induct data ((e : ℤ) - 1) with
  | case1 s hdec hend =>
    rw [decodeRuns, if_pos hdec, if_pos hend] at h
    exact absurd h Bool.false_ne_true
  | case2 s hdec hend hzeros =>
    exact ⟨[_], .rest hdec hzeros, cons_prefix_drop_payloadWords.2
      ⟨by omega, rfl, List.nil_prefix⟩⟩
  | case3 s hdec hend hzeros ih =>
    rw [decodeRuns, if_pos hdec, if_neg hend, if_neg hzeros] at h
    obtain ⟨ws, hruns, hws⟩ := ih h
    exact ⟨_ :: ws, .run hdec hzeros hruns, cons_prefix_drop_payloadWords.2 ⟨by omega, rfl, hws⟩⟩
  | case4 s hdec => exact ⟨[], .full (by omega), List.nil_prefix⟩

/-- `derlc` takes a header and the words of a block. -/
theorem RunWords.derlc {e pos stat : ℕ} {ws : List ℕ} (h : RunWords 0 ws)
    (hws : stat :: ws <+: (payloadWords data e).drop pos) (coeffs : Block) :
    (derlc data pos coeffs (e - 1)).stat = stat ∧
      (derlc data pos coeffs (e - 1)).rlcIn = pos + (stat :: ws).length := by
  obtain ⟨hlt, hword, htail⟩ := cons_prefix_drop_payloadWords.1 hws
  have hruns := h.decodeRuns (s := ⟨pos + 1, 0, [], [2 * pos, 2 * pos + 1]⟩) rfl htail
  unfold Vicodec.derlc
  dsimp only
  rw [if_neg (by omega), if_pos hruns.1]
  refine ⟨hword, hruns.2.trans ?_⟩
  rw [List.length_cons, Nat.add_assoc, Nat.add_comm 1]

/-- Where `derlc` finds a block, there are a header and the words of a block. -/
theorem exists_words_of_derlc {e pos : ℕ} {coeffs : Block}
    (h : (derlc data pos coeffs (e - 1)).stat &&& OVERFLOW_BIT = 0) :
    ∃ ws, RunWords 0 ws ∧
      (derlc data pos coeffs (e - 1)).stat :: ws <+: (payloadWords data e).drop pos := by
  have hover : OVERFLOW_BIT &&& OVERFLOW_BIT ≠ 0 := by decide
  unfold derlc at h ⊢
  dsimp only at h ⊢
  split_ifs at h ⊢ with hend hok
  · exact absurd h hover
  · obtain ⟨ws, hruns, hws⟩ := exists_runWords hok
    exact ⟨ws, hruns, cons_prefix_drop_payloadWords.2 ⟨by omega, rfl, hws⟩⟩
  · exact absurd h hover

/-! ### Blocks, planes and frames -/

/-- The loops take the words of their blocks. -/
theorem BlockWords.decodeBlocks {p : DecodeParams} {columns n copies e : ℕ} {ws : List ℕ}
    (h : BlockWords n copies ws) (hend : p.endOfRlcoBuf = e - 1) {ks : List ℕ} (hks : ks.length = n)
    {s : DecodeState} (hs : s.copies = copies) (hws : ws <+: (payloadWords p.data e).drop s.rlco) :
    (decodeBlocks p columns ks s).1 = true ∧
      (decodeBlocks p columns ks s).2.rlco = s.rlco + ws.length := by
  induction h generalizing ks s with
  | done _ =>
    rw [List.length_eq_zero_iff.1 hks]
    exact ⟨rfl, rfl⟩
  | copy _ ih =>
    obtain ⟨k, ks, rfl⟩ := List.exists_cons_of_length_eq_add_one hks
    rw [decodeBlocks_cons_of_ok (decodeBlock_of_copies p columns k (by omega))]
    exact ih (Nat.succ.inj hks) (Nat.sub_eq_of_eq_add hs) hws
  | @coded n stat ws ws' hstat hruns _ ih =>
    obtain ⟨k, ks, rfl⟩ := List.exists_cons_of_length_eq_add_one hks
    rw [← List.cons_append, append_prefix_drop] at hws
    obtain ⟨hd, hin⟩ := hruns.derlc hws.1 s.coeffs
    rw [← hend] at hd hin
    have hover : ¬(derlc p.data s.rlco s.coeffs p.endOfRlcoBuf).stat &&& OVERFLOW_BIT ≠ 0 := by
      rw [hd, not_not, hstat]
    rw [decodeBlocks_cons_of_ok (decodeBlock_of_coded p columns k hs rfl hover)]
    have hnext := @ih ks (Nat.succ.inj hks)
      (decodeBlock p columns s k).2
    rw [decodeBlock_of_coded p columns k hs rfl hover] at hnext
    obtain ⟨hok, hpos⟩ := hnext (by rw [hd]) (by rw [hin]; exact hws.2)
    refine ⟨hok, hpos.trans ?_⟩
    dsimp only
    rw [hin, ← List.cons_append, List.length_append, Nat.add_assoc]

/-- What the loops take are the words of their blocks. -/
theorem exists_blockWords {p : DecodeParams} {columns e : ℕ} (hend : p.endOfRlcoBuf = e - 1)
    {ks : List ℕ} {s : DecodeState} (h : (decodeBlocks p columns ks s).1 = true) :
    ∃ ws, BlockWords ks.length s.copies ws ∧ ws <+: (payloadWords p.data e).drop s.rlco := by
  induction ks generalizing s with
  | nil => exact ⟨[], .done _, List.nil_prefix⟩
  | cons k ks ih =>
    by_cases hcopies : s.copies = 0
    · by_cases hover : (derlc p.data s.rlco s.coeffs p.endOfRlcoBuf).stat &&& OVERFLOW_BIT ≠ 0
      · rw [decodeBlocks_cons_of_overflow (decodeBlock_of_overflow p columns k hcopies rfl hover)] at h
        exact absurd h Bool.false_ne_true
      · rw [decodeBlocks_cons_of_ok (decodeBlock_of_coded p columns k hcopies rfl hover)] at h
        obtain ⟨ws', hblocks, hws'⟩ := ih h
        dsimp only at hblocks hws'
        rw [not_not] at hover
        rw [hend] at hover hblocks hws'
        obtain ⟨ws, hruns, hws⟩ := exists_words_of_derlc hover
        rw [(hruns.derlc hws s.coeffs).2] at hws'
        rw [hcopies]
        refine ⟨_, .coded hover hruns hblocks, ?_⟩
        rw [← List.cons_append]
        exact append_prefix_drop.2 ⟨hws, hws'⟩
    · rw [decodeBlocks_cons_of_ok (decodeBlock_of_copies p columns k hcopies)] at h
      obtain ⟨ws, hblocks, hws⟩ := ih h
      refine ⟨ws, ?_, hws⟩
      rw [← Nat.succ_pred_eq_of_ne_zero hcopies]
      exact .copy hblocks

section Frame

variable {p : FrameDecodeParams} {c : Component} {cs : List Component} {ws : List ℕ} {pos : ℕ}

theorem length_words (p : FrameDecodeParams) : p.words.length = p.size / 2 := length_payloadWords _ _

/-- Words that are there end in front of the end of the payload. -/
theorem add_length_le (hws : ws <+: p.words.drop pos) (hpos : pos ≤ p.size / 2) :
    pos + ws.length ≤ p.size / 2 := by
  have hle := hws.length_le
  rw [List.length_drop, length_words] at hle
  omega

theorem two_dvd_columns (p : FrameDecodeParams) (c : Component) : 2 ∣ p.columns c :=
  dvd_trans (by decide) (eight_dvd_roundUp8 _)

/-- Half the samples of a plane are its words. -/
theorem half_samples (p : FrameDecodeParams) (c : Component) :
    p.columns c * p.rows c / 2 = p.rows c * (p.columns c / 2) := by
  rw [Nat.mul_comm, Nat.mul_div_assoc _ (two_dvd_columns p c)]

theorem u32_half_le (p : FrameDecodeParams) (c : Component) :
    u32 (p.columns c * p.rows c) / 2 ≤ p.rows c * (p.columns c / 2) := by
  rw [← half_samples]
  exact Nat.div_le_div_right (Nat.mod_le _ _)

/-- A plane that is copied. -/
theorem decodeComponent_of_copied (hraw : p.uncompressed c = true) (coeffs : Block)
    (hend : pos + u32 (p.columns c * p.rows c) / 2 ≤ p.size / 2) :
    decodeComponent p c pos coeffs =
      ⟨true, pos + p.rows c * (p.columns c / 2), coeffs,
        (copyRows (p.plane c) pos (p.rows c) (p.columns c)).map Prod.snd,
        (copyRows (p.plane c) pos (p.rows c) (p.columns c)).map fun r => (r.1, p.data r.2)⟩ := by
  unfold decodeComponent decodePlane
  rw [if_pos hraw]
  refine if_neg ?_
  have hle : (p.plane c).endOfRlcoBuf = (p.size / 2 : ℕ) - 1 := rfl
  change ¬_ < ((pos + u32 (p.columns c * p.rows c) / 2 : ℕ) : ℤ)
  rw [hle]
  omega

/-- A plane that is too long to be copied. -/
theorem decodeComponent_of_not_copied (hraw : p.uncompressed c = true) (coeffs : Block)
    (hend : ¬pos + u32 (p.columns c * p.rows c) / 2 ≤ p.size / 2) :
    decodeComponent p c pos coeffs = ⟨false, pos, coeffs, [], []⟩ := by
  unfold decodeComponent decodePlane
  rw [if_pos hraw]
  refine if_pos ?_
  have hle : (p.plane c).endOfRlcoBuf = (p.size / 2 : ℕ) - 1 := rfl
  change _ < ((pos + u32 (p.columns c * p.rows c) / 2 : ℕ) : ℤ)
  rw [hle]
  omega

/-- A plane that is compressed. -/
theorem decodeComponent_of_coded (hraw : p.uncompressed c = false) (coeffs : Block) :
    decodeComponent p c pos coeffs =
      let r := decodeBlocks (p.plane c) (p.columns c / 8)
        (List.range (p.rows c / 8 * (p.columns c / 8))) ⟨pos, coeffs, 0, coeffs, 0, [], []⟩
      ⟨r.1, r.2.rlco, r.2.coeffs, r.2.reads, r.2.writes⟩ := by
  unfold decodeComponent decodePlane
  exact if_neg (by rw [hraw]; exact Bool.false_ne_true)

/-- `decode_plane` takes the words of its plane. -/
theorem FrameDecodeParams.PlaneWords.decodeComponent (h : p.PlaneWords c ws)
    (hws : ws <+: p.words.drop pos) (hpos : pos ≤ p.size / 2) (coeffs : Block) :
    (decodeComponent p c pos coeffs).ok = true ∧
      (decodeComponent p c pos coeffs).rlco = pos + ws.length := by
  unfold FrameDecodeParams.PlaneWords at h
  split_ifs at h with hraw
  · have hend : pos + u32 (p.columns c * p.rows c) / 2 ≤ p.size / 2 :=
      (Nat.add_le_add_left ((u32_half_le p c).trans h.ge) _).trans (add_length_le hws hpos)
    rw [decodeComponent_of_copied hraw coeffs hend, h]
    exact ⟨rfl, rfl⟩
  · rw [decodeComponent_of_coded (Bool.eq_false_of_not_eq_true hraw)]
    exact h.decodeBlocks (e := p.size / 2) rfl List.length_range rfl hws

/-- What `decode_plane` takes are the words of its plane, if they are there. -/
theorem exists_planeWords {coeffs : Block} (hok : (decodeComponent p c pos coeffs).ok = true)
    (hbounded : p.uncompressed c = true → pos + u32 (p.columns c * p.rows c) / 2 ≤ p.size / 2 →
      pos + p.rows c * (p.columns c / 2) ≤ p.size / 2) :
    ∃ ws, p.PlaneWords c ws ∧ ws <+: p.words.drop pos := by
  unfold FrameDecodeParams.PlaneWords
  by_cases hraw : p.uncompressed c = true
  · by_cases hend : pos + u32 (p.columns c * p.rows c) / 2 ≤ p.size / 2
    · refine ⟨(p.words.drop pos).take (p.rows c * (p.columns c / 2)), ?_, List.take_prefix _ _⟩
      have hle := hbounded hraw hend
      rw [if_pos hraw, List.length_take, List.length_drop, length_words]
      omega
    · rw [decodeComponent_of_not_copied hraw coeffs hend] at hok
      exact absurd hok Bool.false_ne_true
  · rw [decodeComponent_of_coded (Bool.eq_false_of_not_eq_true hraw)] at hok
    obtain ⟨ws, hblocks, hws⟩ := exists_blockWords (e := p.size / 2) rfl hok
    rw [List.length_range] at hblocks
    exact ⟨ws, by rwa [if_neg hraw], hws⟩

/-- Planes whose words are there are decoded, and the planes behind them from the word behind. -/
theorem FrameDecodeParams.FrameWords.decodeComponents (h : p.FrameWords cs ws)
    (hws : ws <+: p.words.drop pos) (hpos : pos ≤ p.size / 2) (cs' : List Component) (coeffs : Block) :
    ∃ coeffs' reads writes, decodeComponents p (cs ++ cs') pos coeffs =
      let f := decodeComponents p cs' (pos + ws.length) coeffs'
      ⟨f.ok, reads ++ f.reads, writes ++ f.writes⟩ := by
  induction h generalizing pos coeffs with
  | nil => exact ⟨coeffs, [], [], rfl⟩
  | @cons c cs ws ws' hc _ ih =>
    rw [append_prefix_drop] at hws
    obtain ⟨hok, hrlco⟩ := hc.decodeComponent hws.1 hpos coeffs
    obtain ⟨coeffs', reads, writes, heq⟩ := ih hws.2 (add_length_le hws.1 hpos)
      (decodeComponent p c pos coeffs).coeffs
    refine ⟨coeffs', (decodeComponent p c pos coeffs).reads ++ reads,
      (decodeComponent p c pos coeffs).writes.map (Prod.mk c) ++ writes, ?_⟩
    rw [List.cons_append, Vicodec.decodeComponents]
    dsimp only
    rw [if_pos hok, hrlco, heq, List.length_append, Nat.add_assoc, List.append_assoc,
      List.append_assoc]

theorem FrameDecodeParams.BoundedAt.head (h : p.BoundedAt (c :: cs) pos) (hraw : p.uncompressed c = true)
    (hend : pos + u32 (p.columns c * p.rows c) / 2 ≤ p.size / 2) :
    pos + p.rows c * (p.columns c / 2) ≤ p.size / 2 :=
  h [] c cs [] rfl .nil List.nil_prefix hraw hend

theorem FrameDecodeParams.BoundedAt.tail (h : p.BoundedAt (c :: cs) pos) (hc : p.PlaneWords c ws)
    (hws : ws <+: p.words.drop pos) : p.BoundedAt cs (pos + ws.length) := by
  intro cs₁ c' cs₂ ws' hcs hframe hws'
  have hall := h (c :: cs₁) c' cs₂ (ws ++ ws') (by rw [hcs, List.cons_append]) (.cons hc hframe)
    (append_prefix_drop.2 ⟨hws, hws'⟩)
  rwa [List.length_append, ← Nat.add_assoc] at hall

/-- **What the decoder takes of planes within bounds are their words.** -/
theorem exists_frameWords (hbounded : p.BoundedAt cs pos) (hpos : pos ≤ p.size / 2) {coeffs : Block}
    (hok : (decodeComponents p cs pos coeffs).ok = true) :
    ∃ ws, p.FrameWords cs ws ∧ ws <+: p.words.drop pos := by
  induction cs generalizing pos coeffs with
  | nil => exact ⟨[], .nil, List.nil_prefix⟩
  | cons c cs ih =>
    rw [decodeComponents] at hok
    dsimp only at hok
    split_ifs at hok with hc
    obtain ⟨ws, hplane, hws⟩ := exists_planeWords hc hbounded.head
    rw [(hplane.decodeComponent hws hpos coeffs).2] at hok
    obtain ⟨ws', hframe, hws'⟩ := ih (hbounded.tail hplane hws) (add_length_le hws hpos) hok
    exact ⟨ws ++ ws', .cons hplane hframe, append_prefix_drop.2 ⟨hws, hws'⟩⟩

end Frame

end Vicodec
end TbsMedia
