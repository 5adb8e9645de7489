import TbsMedia.DvbNet.UleReceive
import Mathlib.Data.List.Chain

/-!
# Streams of SNDUs

A sender packs SNDUs into cells, and the decapsulator takes them out again.  `Carries` says what the
cells of such a stream are like.

* `skip_cell`, `sync_cell`, `resume_cell`, `resume_pusi`: how a cell is entered.
* `cell_end`, `cell_full`, `cell_start`: one cell of a stream.
* `stream_run`: a stream, in any number of calls, from any cell boundary.
* `decapsulation_exact`: a stream from its start.
-/

namespace TbsMedia
namespace Net

open Lib
open Demux (TsPacket)

variable (ops : UleOps)

/-! ## The sender -/

/-- The content of a cell: its pointer field, if an SNDU starts in it, and the bytes behind it. -/
def uleView (c : TsPacket) : Option ℕ × List UInt8 :=
  if c 1 &&& TS_PUSI ≠ 0 then (some (c 4).toNat, c.bytes.drop 5) else (none, c.bytes.drop 4)

/-- A cell with a header that the decapsulator takes. -/
structure Sound (c : TsPacket) : Prop where
  sync : c 0 = TS_SYNC
  tei : c 1 &&& TS_TEI = 0
  sc : c 3 &&& TS_SC = 0

/-- The cells carry the rest `lead` of an SNDU and then `us`.  An SNDU starts in a cell only where
`hdr` of its bytes fit. -/
structure Carries (hdr : ℕ) (lead : List UInt8) (us : List Sndu) (cells : List TsPacket) :
    Prop where
  packs : Packs hdr 0xff uleView (fun _ => False) lead (us.map (Sndu.bytes ops)) cells
  sound : ∀ c ∈ cells, Sound c
  continuous : cells.IsChain fun p q => q.cc = (p.cc + 1) % 16

/-! ## Into a cell -/

variable {ops} {s t : Ule} {u : Sndu} {E : Ctx} {h : DvbNetUleHandle} {v rest : List UInt8}
  {c : TsPacket} {cells : List TsPacket} {a : ℕ}

theorem length_cells (cells : List TsPacket) :
    (cells.flatMap TsPacket.bytes).length = TS_SZ * cells.length := by
  induction cells with
  | nil => rfl
  | cons c cells ih =>
    rw [List.flatMap_cons, List.length_append, c.length_bytes, ih, List.length_cons, Nat.mul_succ,
      Nat.add_comm]
    rfl

theorem Ahead.cell (ha : Ahead h a (c :: cells)) : h.buf.read a TS_SZ = c.bytes := by
  have hread := ha.2
  rw [List.flatMap_cons, List.length_cons, Nat.mul_succ, Nat.add_comm] at hread
  have hlen : c.bytes.length = TS_SZ := c.length_bytes
  have hhead := ((Mem.read_eq_append_iff (by rw [hlen, length_cells])).mp hread).1
  rwa [hlen] at hhead

theorem Ahead.next (ha : Ahead h a (c :: cells)) : Ahead h (a + TS_SZ) cells := by
  obtain ⟨hend, hread⟩ := ha
  rw [List.length_cons, Nat.mul_succ] at hend
  rw [List.flatMap_cons, List.length_cons, Nat.mul_succ, Nat.add_comm (TS_SZ * _),
    Mem.read_add] at hread
  have hlen : (h.buf.read a TS_SZ).length = c.bytes.length :=
    (Mem.length_read ..).trans c.length_bytes.symm
  exact ⟨by omega, (List.append_inj hread hlen).2⟩

theorem Ahead.byte (ha : Ahead h a (c :: cells)) {i : ℕ} (hi : i < 188) : h.buf (a + i) = c i := by
  have hlen : c.bytes.length = 188 := c.length_bytes
  rw [Mem.apply_of_read_eq ha.cell (by omega)]
  exact (List.getD_eq_getElem _ _ (by omega)).symm

/-- The cursor behind the first `k` bytes of a cell. -/
theorem Ahead.cursor (ha : Ahead h h.ts (c :: cells)) {k : ℕ} (h4 : 4 ≤ k) (hk : k ≤ 188)
    (hfrom : h.fromWhere = h.ts + k) (hrem : h.tsRemain = 188 - k) :
    Cursor h (c.bytes.drop k) := by
  have hs : TS_SZ = 188 := rfl
  have hlen : (c.bytes.drop k).length = 188 - k := by
    rw [List.length_drop, c.length_bytes]
  refine ⟨?_, ?_, ?_, ?_⟩
  · omega
  · rw [hrem, hlen]
  · omega
  · rw [hlen, hfrom, ← ha.cell]
    exact (Mem.drop_read _ hk).symm

/-- The step into a cell with a good header. -/
theorem cell_step (ops : UleOps) (hat : AtCell E s) (hcells : E.cells = c :: cells)
    (hc : Sound c) :
    uleStep ops s = { s with pc := .pusi, h.tsRemain := 184, h.fromWhere := s.h.ts + 4 } := by
  have ha := hat.ahead
  rw [hcells] at ha
  have h0 : s.h.buf s.h.ts = c 0 := ha.byte (i := 0) (by decide)
  have h1 := ha.byte (i := 1) (by decide)
  have h3 := ha.byte (i := 3) (by decide)
  have hgood : ¬ (c 0 ≠ TS_SYNC ∨ c 1 &&& TS_TEI ≠ 0 ∨ c 3 &&& TS_SC ≠ 0) := by
    rintro (h | h | h)
    · exact h hc.sync
    · exact h hc.tei
    · exact h hc.sc
  unfold uleStep
  rw [hat.pc]
  dsimp only
  rw [if_pos ha.next.lt, if_pos hat.newTs, dvbNetUleNewTsCell]
  dsimp only
  rw [h0, h1, h3, if_neg hgood]

/-- The surroundings of the bytes of the first cell, and behind it. -/
def Ctx.enter (E : Ctx) (c : TsPacket) (cells : List TsPacket) : Ctx :=
  { E with cells, tscc := (c.cc + 1) % 16 }

/-- **A decoder that waits for PUSI skips a cell without it.** -/
theorem skip_cell (ops : UleOps) (hat : AtCell E s) (hcells : E.cells = c :: cells) (hc : Sound c)
    (hneed : s.p.needPusi = true) (hpusi : c 1 &&& TS_PUSI = 0) :
    ∃ t, Leads (uleStep ops) s t ∧ AtCell (E.enter c cells) t ∧ t.p = s.p := by
  have ha := hat.ahead
  rw [hcells] at ha
  have h1 := ha.byte (i := 1) (by decide)
  have hstep := cell_step ops hat hcells hc
  generalize ht : uleStep ops s = t at hstep
  have hskip : uleStep ops t = t.nextCell := by
    unfold uleStep
    rw [show t.pc = .pusi by rw [hstep]]
    dsimp only
    rw [if_pos (by rw [hstep]; exact hneed), dvbNetUleTsPusi, if_neg]
    rw [hstep]
    change ¬ s.h.buf (s.h.ts + 1) &&& TS_PUSI ≠ 0
    rw [h1]
    exact not_not.mpr hpusi
  refine ⟨t.nextCell, Leads.head ht (Leads.head hskip (Leads.refl _)), ?_, ?_⟩
  · rw [hstep]
    exact ⟨rfl, hat.newTs, ha.next, hat.rxMode, hat.multiMacs, hat.out⟩
  · rw [hstep]
    rfl

/-- The step over the continuity counter, where it is the expected one. -/
theorem newTs_step (ops : UleOps) (hpc : s.pc = .newTs) (hnew : s.h.newTs = true)
    (hcc : (s.h.buf (s.h.ts + 3) &&& 0x0f).toNat = s.p.tscc) :
    uleStep ops s = { s with pc := .pointer, p.tscc := (s.p.tscc + 1) % 16 } := by
  unfold uleStep
  rw [hpc]
  dsimp only
  rw [if_pos hnew, dvbNetUleNewTs, if_pos hcc]

/-- The step over the pointer field of the cell that the decoder has synchronized on. -/
theorem pointer_sync (ops : UleOps) (hpc : s.pc = .pointer) (hp : Pusi s.h)
    (hneed : s.p.needPusi = true) :
    uleStep ops s = { s with pc := .flush, p.needPusi := false } := by
  have hp : s.h.buf (s.h.ts + 1) &&& TS_PUSI ≠ 0 := hp
  unfold uleStep
  rw [hpc]
  dsimp only
  rw [dvbNetUleNewTsPointer, if_pos hp, if_neg (by rw [hneed]; exact Bool.false_ne_true)]

/-- The step over a pointer field that says how much of the SNDU in progress is missing. -/
theorem pointer_match (ops : UleOps) (hpc : s.pc = .pointer) (hp : Pusi s.h)
    (hneed : s.p.needPusi = false) (hlt : (s.h.buf s.h.fromWhere).toNat + 1 < s.h.tsRemain)
    (hrem : (s.h.buf s.h.fromWhere).toNat = s.p.uleSnduRemain) :
    uleStep ops s = (s.advance 1).goto .flush := by
  have hp : s.h.buf (s.h.ts + 1) &&& TS_PUSI ≠ 0 := hp
  unfold uleStep
  rw [hpc]
  dsimp only
  rw [dvbNetUleNewTsPointer, if_pos hp, if_pos (by rw [hneed]; rfl)]
  dsimp only
  rw [if_neg]
  rintro (hlt' | hne)
  · exact hlt' hlt
  · exact hne hrem

/-- The step in a cell without pointer field. -/
theorem pointer_none (ops : UleOps) (hpc : s.pc = .pointer) (hp : ¬ Pusi s.h) :
    uleStep ops s = s.goto .payload := by
  have hp : ¬ s.h.buf (s.h.ts + 1) &&& TS_PUSI ≠ 0 := hp
  unfold uleStep
  rw [hpc]
  dsimp only
  rw [dvbNetUleNewTsPointer, if_neg hp]

theorem flush_step (ops : UleOps) (hpc : s.pc = .flush) (hrem : s.p.uleSnduRemain ≤ 183) :
    uleStep ops s = s.goto .payload := by
  unfold uleStep
  rw [hpc]
  dsimp only
  rw [dvbNetUleNewTsFlush, if_neg (Nat.not_lt.mpr hrem)]

/-- What a decoder becomes when it synchronizes. -/
def DvbNetPriv.synced (p : DvbNetPriv) (tscc : ℕ) : DvbNetPriv := { p with tscc, needPusi := false }

/-- **A decoder that waits for PUSI synchronizes** on the pointer field. -/
theorem sync_cell (ops : UleOps) (hat : AtCell E s) (hcells : E.cells = c :: cells) (hc : Sound c)
    (hneed : s.p.needPusi = true) (hrem : s.p.uleSnduRemain ≤ 183) (hpusi : c 1 &&& TS_PUSI ≠ 0)
    (hpf : (c 4).toNat ≤ 183) :
    ∃ t, Leads (uleStep ops) s t ∧ t.pc = .payload ∧
      Reading (E.enter c cells) (c.bytes.drop (5 + (c 4).toNat)) t ∧
        t.p = s.p.synced ((c.cc + 1) % 16) := by
  have ha := hat.ahead
  rw [hcells] at ha
  have b1 : s.h.buf (s.h.ts + 1) = c 1 := ha.byte (by decide)
  have b3 : s.h.buf (s.h.ts + 3) = c 3 := ha.byte (by decide)
  have b4 : s.h.buf (s.h.ts + 4) = c 4 := ha.byte (by decide)
  have hp : s.h.buf (s.h.ts + 1) &&& TS_PUSI ≠ 0 := by
    rw [b1]
    exact hpusi
  have hstep₁ := cell_step ops hat hcells hc
  generalize ht₁ : uleStep ops s = t₁ at hstep₁
  have hstep₂ : uleStep ops t₁ = { s with
      pc := .newTs, p.tscc := c.cc, h.fromWhere := s.h.ts + 5 + (c 4).toNat
      h.tsRemain := u8Sub 184 (1 + (c 4).toNat) } := by
    have hsync : uleStep ops t₁ = _ := pusi_step (by rw [hstep₁]) (by rw [hstep₁]; exact hneed)
      (by rw [hstep₁]; exact hp) (by
        rw [hstep₁]
        change (s.h.buf (s.h.ts + 4)).toNat ≤ 184
        rw [b4]
        omega)
    rw [hsync, hstep₁]
    dsimp only
    rw [b3, b4]
    rfl
  generalize ht₂ : uleStep ops t₁ = t₂ at hstep₂
  have hstep₃ : uleStep ops t₂ = { t₂ with pc := .pointer, p.tscc := (c.cc + 1) % 16 } := by
    rw [newTs_step ops]
    · rw [hstep₂]
    · rw [hstep₂]
    · rw [hstep₂]
      exact hat.newTs
    · rw [hstep₂]
      change (s.h.buf (s.h.ts + 3) &&& 0x0f).toNat = c.cc
      rw [b3]
      rfl
  generalize ht₃ : uleStep ops t₂ = t₃ at hstep₃
  have hstep₄ : uleStep ops t₃ = { t₃ with pc := .flush, p.needPusi := false } := by
    refine pointer_sync ops ?_ ?_ ?_
    · rw [hstep₃]
    · rw [hstep₃, hstep₂]
      exact hp
    · rw [hstep₃, hstep₂]
      exact hneed
  generalize ht₄ : uleStep ops t₃ = t₄ at hstep₄
  have hstep₅ : uleStep ops t₄ = t₄.goto .payload := by
    refine flush_step ops ?_ ?_
    · rw [hstep₄]
    · rw [hstep₄, hstep₃, hstep₂]
      exact hrem
  refine ⟨t₄.goto .payload, Leads.head ht₁ (Leads.head ht₂ (Leads.head ht₃ (Leads.head ht₄
    (Leads.head hstep₅ (Leads.refl _))))), rfl, ?_, ?_⟩
  · rw [hstep₄, hstep₃, hstep₂]
    refine ⟨?_, ha.next, rfl, rfl, hat.rxMode, hat.multiMacs, hat.out⟩
    have ha' : Ahead { s.h with
        fromWhere := s.h.ts + 5 + (c 4).toNat, tsRemain := u8Sub 184 (1 + (c 4).toNat) }
        s.h.ts (c :: cells) := ha
    refine Ahead.cursor ha' (by omega) (by omega) (Nat.add_assoc _ _ _) ?_
    change u8Sub 184 (1 + (c 4).toNat) = _
    rw [u8Sub_of_le (by decide) (by omega)]
    omega
  · rw [hstep₄, hstep₃, hstep₂]
    rfl

/-- The decoder at the pointer field of the cell it has entered. -/
def Ule.atPointer (s : Ule) (tscc : ℕ) : Ule :=
  { s with pc := .pointer, h.tsRemain := 184, h.fromWhere := s.h.ts + 4, p.tscc := tscc }

/-- The decoder in front of the continuity counter of the cell it has entered. -/
def Ule.atNewTs (s : Ule) : Ule :=
  { s with pc := .newTs, h.tsRemain := 184, h.fromWhere := s.h.ts + 4 }

/-- A decoder with an SNDU in progress enters a cell. -/
theorem reach_newTs (ops : UleOps) (hat : AtCell E s) (hcells : E.cells = c :: cells)
    (hc : Sound c) (hneed : s.p.needPusi = false) : Leads (uleStep ops) s s.atNewTs := by
  have hstep₁ := cell_step ops hat hcells hc
  generalize ht₁ : uleStep ops s = t₁ at hstep₁
  have hstep₂ : uleStep ops t₁ = t₁.goto .newTs := by
    unfold uleStep
    rw [show t₁.pc = .pusi by rw [hstep₁]]
    dsimp only
    rw [if_neg]
    rw [hstep₁]
    change ¬ s.p.needPusi = true
    rw [hneed]
    exact Bool.false_ne_true
  rw [show s.atNewTs = t₁.goto .newTs by rw [hstep₁]; rfl]
  exact Leads.head ht₁ (Leads.head hstep₂ (Leads.refl _))

/-- The cell is the one that the decoder expects. -/
theorem enter_cell (ops : UleOps) (hat : AtCell E s) (hcells : E.cells = c :: cells)
    (hc : Sound c) (hneed : s.p.needPusi = false) (hcc : c.cc = s.p.tscc) :
    Leads (uleStep ops) s (s.atPointer ((c.cc + 1) % 16)) ∧
      Cursor (s.atPointer ((c.cc + 1) % 16)).h (c.bytes.drop 4) := by
  have ha := hat.ahead
  rw [hcells] at ha
  have b3 : s.h.buf (s.h.ts + 3) = c 3 := ha.byte (by decide)
  have hstep : uleStep ops s.atNewTs = s.atPointer ((c.cc + 1) % 16) := by
    have hcc' : (s.atNewTs.h.buf (s.atNewTs.h.ts + 3) &&& 0x0f).toNat = s.atNewTs.p.tscc := by
      change (s.h.buf (s.h.ts + 3) &&& 0x0f).toNat = s.p.tscc
      rw [b3]
      exact hcc
    have hnew : uleStep ops s.atNewTs = _ := newTs_step ops rfl hat.newTs hcc'
    rw [hnew, hcc]
    rfl
  refine ⟨(reach_newTs ops hat hcells hc hneed).tail hstep, ?_⟩
  have ha' : Ahead (s.atPointer ((c.cc + 1) % 16)).h s.h.ts (c :: cells) := ha
  exact Ahead.cursor ha' (by decide) (by decide) rfl rfl

/-- **An SNDU in progress goes on** in a cell without PUSI. -/
theorem resume_cell (ops : UleOps) (hat : AtCell E s) (hcells : E.cells = c :: cells)
    (hc : Sound c) (hneed : s.p.needPusi = false) (hcc : c.cc = s.p.tscc)
    (hpusi : c 1 &&& TS_PUSI = 0) :
    ∃ t, Leads (uleStep ops) s t ∧ t.pc = .payload ∧
      Reading (E.enter c cells) (c.bytes.drop 4) t ∧
        t.p = { s.p with tscc := (c.cc + 1) % 16 } := by
  have ha := hat.ahead
  rw [hcells] at ha
  have b1 : s.h.buf (s.h.ts + 1) = c 1 := ha.byte (by decide)
  obtain ⟨hlead, hcur⟩ := enter_cell ops hat hcells hc hneed hcc
  have hp : ¬ Pusi (s.atPointer ((c.cc + 1) % 16)).h := by
    change ¬ s.h.buf (s.h.ts + 1) &&& TS_PUSI ≠ 0
    rw [b1]
    exact not_not.mpr hpusi
  exact ⟨_, hlead.trans (Leads.head (pointer_none ops rfl hp) (Leads.refl _)), rfl,
    ⟨hcur, ha.next, hneed, rfl, hat.rxMode, hat.multiMacs, hat.out⟩, rfl⟩

/-- **An SNDU in progress goes on** in a cell whose pointer field says how much of it is missing. -/
theorem resume_pusi (ops : UleOps) (hat : AtCell E s) (hcells : E.cells = c :: cells)
    (hc : Sound c) (hneed : s.p.needPusi = false) (hcc : c.cc = s.p.tscc)
    (hpusi : c 1 &&& TS_PUSI ≠ 0) (hpf : (c 4).toNat < 183)
    (hrem : (c 4).toNat = s.p.uleSnduRemain) :
    ∃ t, Leads (uleStep ops) s t ∧ t.pc = .payload ∧
      Reading (E.enter c cells) (c.bytes.drop 5) t ∧
        t.p = { s.p with tscc := (c.cc + 1) % 16 } ∧ t.h.ts = s.h.ts := by
  have ha := hat.ahead
  rw [hcells] at ha
  have b1 : s.h.buf (s.h.ts + 1) = c 1 := ha.byte (by decide)
  have b4 : s.h.buf (s.h.ts + 4) = c 4 := ha.byte (by decide)
  obtain ⟨hlead, hcur⟩ := enter_cell ops hat hcells hc hneed hcc
  generalize hs' : s.atPointer ((c.cc + 1) % 16) = s' at hlead
  have hp : Pusi s'.h := by
    rw [← hs']
    change s.h.buf (s.h.ts + 1) &&& TS_PUSI ≠ 0
    rw [b1]
    exact hpusi
  have hfrom : s'.h.buf s'.h.fromWhere = c 4 := by
    rw [← hs']
    exact b4
  have hmatch : uleStep ops s' = (s'.advance 1).goto .flush := by
    refine pointer_match ops ?_ hp ?_ ?_ ?_
    · rw [← hs']
      rfl
    · rw [← hs']
      exact hneed
    · rw [hfrom, ← hs']
      change (c 4).toNat + 1 < 184
      omega
    · rw [hfrom, ← hs']
      exact hrem
  have hflush : uleStep ops ((s'.advance 1).goto .flush) = (s'.advance 1).goto .payload := by
    refine flush_step ops rfl ?_
    rw [← hs']
    change s.p.uleSnduRemain ≤ 183
    omega
  refine ⟨_, hlead.trans (Leads.head hmatch (Leads.head hflush (Leads.refl _))), rfl, ?_, ?_, ?_⟩
  · rw [← hs']
    refine ⟨?_, ha.next, hneed, rfl, hat.rxMode, hat.multiMacs, hat.out⟩
    have ha' : Ahead ((s.atPointer ((c.cc + 1) % 16)).advance 1).h s.h.ts (c :: cells) := ha
    exact Ahead.cursor ha' (by decide) (by decide) rfl (by decide : u8Sub 184 1 = 183)
  · rw [← hs']
    rfl
  · rw [← hs']
    rfl

/-! ## One cell of a stream -/

theorem view_none {body : List UInt8} (h : uleView c = (none, body)) :
    c 1 &&& TS_PUSI = 0 ∧ c.bytes.drop 4 = body := by
  unfold uleView at h
  split_ifs at h with hp
  · exact absurd (congrArg Prod.fst h) (Option.some_ne_none _)
  · exact ⟨not_not.mp hp, congrArg Prod.snd h⟩

theorem view_some {pf : ℕ} {body : List UInt8} (h : uleView c = (some pf, body)) :
    c 1 &&& TS_PUSI ≠ 0 ∧ (c 4).toNat = pf ∧ c.bytes.drop 5 = body := by
  unfold uleView at h
  split_ifs at h with hp
  · exact ⟨hp, Option.some.inj (congrArg Prod.fst h), congrArg Prod.snd h⟩
  · exact absurd (congrArg Prod.fst h).symm (Option.some_ne_none _)

theorem pending_tscc {p : DvbNetPriv} (hp : Pending ops u rest p) (tscc : ℕ) :
    Pending ops u rest { p with tscc } := by
  obtain ⟨⟨hl, hd, hb⟩, hn, hr, haw⟩ := hp
  refine ⟨⟨hl, hd, hb⟩, hn, hr, ?_⟩
  cases haw with
  | type hskb h1 => exact .type hskb h1
  | low hskb h1 hhi => exact .low hskb h1 hhi
  | data hf =>
    exact .data ⟨⟨hf.opened.sndLen, hf.opened.dbit, hf.opened.bridged⟩, hf.type, hf.type1, hf.split,
      hf.remain, hf.skb⟩

/-- What is behind the pointer field is behind the rest of the SNDU in progress. -/
theorem units_two_le {us : List Sndu} {pend : List Sndu} {tail : List UInt8}
    (hends : Ends ops tail pend rest) (hne : us ≠ [] ∨ pend ≠ []) :
    2 ≤ ((us.map (Sndu.bytes ops)).flatten ++ tail).length := by
  rw [List.length_append]
  rcases us with _ | ⟨u, us⟩
  · cases hends with
    | fill => rcases hne with hne | hne <;> exact absurd rfl hne
    | part _ _ _ _ h2 => exact Nat.le_trans h2 (Nat.le_add_left _ _)
  · rw [List.map_cons, List.flatten_cons, List.length_append, u.length_bytes]
    omega

/-- **A cell without PUSI in which the SNDU in progress ends**, if there is one. -/
theorem cell_end (halloc : ops.AllocOk) (hat : AtCell E s) (hcells : E.cells = c :: cells)
    (hc : Sound c) {pend : List Sndu} (hbet : Between ops E.tscc s.p pend rest)
    (hcc : rest ≠ [] → c.cc = E.tscc) {m : ℕ}
    (hview : uleView c = (none, rest ++ List.replicate m 0xff)) :
    ∃ t, Leads (uleStep ops) s t ∧ AtCell ((E.enter c cells).handAll ops pend) t ∧
      Between ops ((c.cc + 1) % 16) t.p [] [] := by
  obtain ⟨hpusi, hbody⟩ := view_none hview
  cases hbet with
  | idle hneed hfresh =>
    obtain ⟨t, hlead, hat', hp⟩ := skip_cell ops hat hcells hc hneed hpusi
    rw [handAll_nil]
    refine ⟨t, hlead, hat', ?_⟩
    rw [hp]
    exact .idle hneed hfresh
  | within u rest hu hne hpend htscc =>
    obtain ⟨t₁, hlead₁, hpc₁, hr₁, hp₁⟩ :=
      resume_cell ops hat hcells hc hpend.needPusi ((hcc hne).trans htscc.symm) hpusi
    have hpend₁ := pending_tscc hpend ((c.cc + 1) % 16)
    rw [← hp₁] at hpend₁
    have hlen : (c.bytes.drop 4).length = 184 := by
      rw [List.length_drop, c.length_bytes]
    rw [hbody] at hr₁ hlen
    obtain ⟨t₂, hlead₂, hpc₂, hf₂, hr₂⟩ :=
      hpend₁.finish halloc hu.type hpc₁ hr₁ (by rw [hlen]; decide)
    obtain ⟨t₃, hlead₃, hat₃, hbet₃⟩ := units_run halloc (.fill m) [] (by rintro _ ⟨⟩) hf₂ hr₂
      (Or.inl hpc₂)
    rw [← handAll_cons] at hat₃
    exact ⟨t₃, (hlead₁.trans hlead₂).trans hlead₃, hat₃, hbet₃⟩

/-- **A cell without PUSI that is full of the SNDU in progress.** -/
theorem cell_full (halloc : ops.AllocOk) (hat : AtCell E s) (hcells : E.cells = c :: cells)
    (hc : Sound c) {pend : List Sndu} (hbet : Between ops E.tscc s.p pend (v ++ rest))
    (hrest : rest ≠ []) (hcc : c.cc = E.tscc) (hview : uleView c = (none, v)) :
    ∃ t, Leads (uleStep ops) s t ∧ AtCell (E.enter c cells) t ∧
      Between ops ((c.cc + 1) % 16) t.p pend rest := by
  obtain ⟨hpusi, hbody⟩ := view_none hview
  generalize hall : v ++ rest = all at hbet
  cases hbet with
  | idle => exact absurd (List.append_eq_nil_iff.mp hall).2 hrest
  | within u _ hu hne hpend htscc =>
    subst hall
    obtain ⟨t₁, hlead₁, hpc₁, hr₁, hp₁⟩ :=
      resume_cell ops hat hcells hc hpend.needPusi (hcc.trans htscc.symm) hpusi
    have hpend₁ := pending_tscc hpend ((c.cc + 1) % 16)
    rw [← hp₁] at hpend₁
    have hlen : (c.bytes.drop 4).length = 184 := by
      rw [List.length_drop, c.length_bytes]
    rw [hbody] at hr₁ hlen
    obtain ⟨t₂, hlead₂, hat₂, hpend₂, htscc₂⟩ :=
      hpend₁.suspend halloc hpc₁ hrest hr₁ (by omega)
    exact ⟨t₂, hlead₁.trans hlead₂, hat₂, .within u rest hu hrest hpend₂ htscc₂⟩

/-- **A cell in which SNDUs start.** -/
theorem cell_start (halloc : ops.AllocOk) (hat : AtCell E s) (hcells : E.cells = c :: cells)
    (hc : Sound c) {pend pend' us : List Sndu} {tail rest' : List UInt8}
    (hbet : Between ops E.tscc s.p pend rest) (hcc : rest ≠ [] → c.cc = E.tscc)
    (hplain : ∀ u ∈ us, u.Plain) (hends : Ends ops tail pend' rest')
    (hne : us ≠ [] ∨ pend' ≠ [])
    (hview : uleView c =
      (some rest.length, rest ++ ((us.map (Sndu.bytes ops)).flatten ++ tail))) :
    ∃ t, Leads (uleStep ops) s t ∧ AtCell ((E.enter c cells).handAll ops (pend ++ us)) t ∧
      Between ops ((c.cc + 1) % 16) t.p pend' rest' := by
  obtain ⟨hpusi, hpf, hbody⟩ := view_some hview
  have htwo := units_two_le hends hne
  have hlen : (c.bytes.drop 5).length = 183 := by
    rw [List.length_drop, c.length_bytes]
  rw [hbody, List.length_append] at hlen
  cases hbet with
  | idle hneed hfresh =>
    obtain ⟨t₁, hlead₁, hpc₁, hr₁, hp₁⟩ := sync_cell ops hat hcells hc hneed
      (by rw [hfresh.remain]; decide) hpusi (by omega)
    have hf₁ : Fresh t₁.p := by
      rw [hp₁]
      exact ⟨hfresh.skb, hfresh.sndLen, hfresh.remain, hfresh.type1, hfresh.bridged⟩
    rw [hpf, ← List.drop_drop, hbody, List.drop_left' rfl] at hr₁
    obtain ⟨t₂, hlead₂, hat₂, hbet₂⟩ :=
      units_run halloc hends us hplain hf₁ hr₁ (Or.inr ⟨hpc₁, hne⟩)
    exact ⟨t₂, hlead₁.trans hlead₂, hat₂, hbet₂⟩
  | within u rest hu hrest hpend htscc =>
    obtain ⟨t₁, hlead₁, hpc₁, hr₁, hp₁, -⟩ := resume_pusi ops hat hcells hc hpend.needPusi
      ((hcc hrest).trans htscc.symm) hpusi (by omega) (hpf.trans hpend.remain.symm)
    have hpend₁ := pending_tscc hpend ((c.cc + 1) % 16)
    rw [← hp₁] at hpend₁
    rw [hbody] at hr₁
    obtain ⟨t₂, hlead₂, hpc₂, hf₂, hr₂⟩ :=
      hpend₁.finish halloc hu.type hpc₁ hr₁ (by rw [List.length_append]; omega)
    obtain ⟨t₃, hlead₃, hat₃, hbet₃⟩ :=
      units_run halloc hends us hplain hf₂ hr₂ (Or.inl hpc₂)
    rw [← handAll_cons] at hat₃
    exact ⟨t₃, (hlead₁.trans hlead₂).trans hlead₃, hat₃, hbet₃⟩

/-! ## A whole stream -/

/-- The call in progress is run to its end, and `dvb_net_ule` is called with each of `calls`, one
after the other. -/
inductive Feed (ops : UleOps) : Ule → List (List TsPacket) → Ule → Prop where
  | last {s t : Ule} : Leads (uleStep ops) s t → t.pc = .done → Feed ops s [] t
  | call {s t u : Ule} {cs : List TsPacket} {calls : List (List TsPacket)} :
      Leads (uleStep ops) s t → t.pc = .done → Feed ops (t.callCells cs) calls u →
      Feed ops s (cs :: calls) u

variable {calls : List (List TsPacket)}

theorem Feed.head (hst : Leads (uleStep ops) s t) {w : Ule} (h : Feed ops t calls w) :
    Feed ops s calls w := by
  cases h with
  | last hlead hpc => exact .last (hst.trans hlead) hpc
  | call hlead hpc hrest => exact .call (hst.trans hlead) hpc hrest

theorem Feed.done {w : Ule} (h : Feed ops s calls w) : w.pc = .done := by
  induction h with
  | last _ hpc => exact hpc
  | call _ _ _ ih => exact ih

/-- A call with `cs` starts at the head of the loop. -/
theorem atCell_call (cs : List TsPacket) (hmode : s.p.rxMode = E.rxMode)
    (hmacs : s.p.multiMacs = E.multiMacs) (hout : s.rx.map RxFrame.frame = E.out) :
    AtCell { E with cells := cs } (s.callCells cs) := by
  refine ⟨rfl, rfl, ⟨Nat.zero_add _, ?_⟩, hmode, hmacs, hout⟩
  change (Mem.ofList 0 (cs.flatMap TsPacket.bytes)).read 0 (TS_SZ * cs.length) = _
  rw [Mem.read_ofList _ (by rw [length_cells, Nat.zero_add]), List.drop_zero, ← length_cells,
    List.take_length]

/-- At the end of the cells the call returns. -/
theorem return_step (ops : UleOps) (hat : AtCell E s) (hcells : E.cells = []) :
    uleStep ops s = s.goto .done := by
  have hend := hat.ahead.1
  rw [hcells] at hend
  have hend : s.h.ts = s.h.tsEnd := hend
  unfold uleStep
  rw [hat.pc]
  dsimp only
  rw [if_neg (by rw [hend]; exact Nat.lt_irrefl _)]

/-- The next cell may be in another call. -/
theorem feed_ready (ops : UleOps) : ∀ (calls : List (List TsPacket)) {E : Ctx} {s : Ule},
    AtCell E s → E.cells ++ calls.flatten = c :: cells →
      ∃ s' calls' cs, AtCell { E with cells := c :: cs } s' ∧ s'.p = s.p ∧
        cs ++ calls'.flatten = cells ∧ ∀ {w}, Feed ops s' calls' w → Feed ops s calls w := by
  intro calls
  induction calls with
  | nil =>
    intro E s hat hall
    rw [List.flatten_nil, List.append_nil] at hall
    refine ⟨s, [], cells, ?_, rfl, List.append_nil _, fun hfeed => hfeed⟩
    rw [← hall]
    exact hat
  | cons call calls ih =>
    intro E s hat hall
    rcases hcells : E.cells with _ | ⟨c', cs⟩
    · rw [hcells, List.nil_append, List.flatten_cons] at hall
      have hret := return_step ops hat hcells
      obtain ⟨s', calls', cs, hat', hp, hrest, hfeed⟩ :=
        ih (atCell_call (s := s.goto .done) call hat.rxMode hat.multiMacs hat.out) hall
      exact ⟨s', calls', cs, hat', hp, hrest,
        fun h => .call (Leads.head hret (Leads.refl _)) rfl (hfeed h)⟩
    · rw [hcells] at hall
      obtain ⟨rfl, hrest⟩ := List.cons_eq_cons.mp hall
      refine ⟨s, call :: calls, cs, ?_, rfl, hrest, fun hfeed => hfeed⟩
      rw [← hcells]
      exact hat

theorem step_done (ops : UleOps) (hpc : s.pc = .done) : uleStep ops s = s := by
  unfold uleStep
  rw [hpc]

/-- The calls have one result. -/
theorem Feed.unique {w w' : Ule} (h : Feed ops s calls w) : Feed ops s calls w' → w = w' := by
  induction h with
  | last hlead hpc =>
    rintro (⟨hlead', hpc'⟩ | _)
    exact hlead.unique_of_halt hlead' (step_done ops hpc) (step_done ops hpc')
  | call hlead hpc _ ih =>
    rintro (_ | ⟨hlead', hpc', hrest'⟩)
    obtain rfl := hlead.unique_of_halt hlead' (step_done ops hpc) (step_done ops hpc')
    exact ih hrest'

/-- When there are no more cells, the calls return. -/
theorem feed_end (ops : UleOps) : ∀ (calls : List (List TsPacket)) {E : Ctx} {s : Ule},
    AtCell E s → E.cells ++ calls.flatten = [] →
      ∃ w, Feed ops s calls w ∧ w.rx.map RxFrame.frame = E.out := by
  intro calls
  induction calls with
  | nil =>
    intro E s hat hall
    have hret := return_step ops hat (List.append_eq_nil_iff.mp hall).1
    exact ⟨_, .last (Leads.head hret (Leads.refl _)) rfl, hat.out⟩
  | cons call calls ih =>
    intro E s hat hall
    obtain ⟨hcells, hrest⟩ := List.append_eq_nil_iff.mp hall
    have hret := return_step ops hat hcells
    obtain ⟨w, hfeed, hout⟩ :=
      ih (atCell_call (s := s.goto .done) call hat.rxMode hat.multiMacs hat.out) hrest
    exact ⟨w, .call (Leads.head hret (Leads.refl _)) rfl hfeed, hout⟩

/-- The frames of the SNDUs that are wanted. -/
def Ctx.frames (ops : UleOps) (E : Ctx) (us : List Sndu) : List (List UInt8) :=
  (us.filter fun u => u.Wanted ops E.rxMode E.multiMacs).map Sndu.frame

theorem frames_append (ops : UleOps) (E : Ctx) (us vs : List Sndu) :
    E.frames ops (us ++ vs) = E.frames ops us ++ E.frames ops vs := by
  rw [Ctx.frames, List.filter_append, List.map_append]
  rfl

/-- The continuity counter of the first cell is the expected one, if an SNDU is in progress. -/
def InStep (tscc : ℕ) (rest : List UInt8) (cells : List TsPacket) : Prop :=
  rest ≠ [] → ∀ c ∈ cells.head?, c.cc = tscc

theorem inStep_tail {rest : List UInt8}
    (h : (c :: cells).IsChain fun p q => q.cc = (p.cc + 1) % 16) :
    InStep ((c.cc + 1) % 16) rest cells := by
  intro _ d hd
  rcases cells with _ | ⟨d', cells⟩
  · cases hd
  · obtain rfl := Option.some.inj hd
    exact (List.isChain_cons_cons.mp h).1

/-- A decoder that stands in front of `c` with `rest` of `pend` still to come gets over `c`, hands up
`done`, and is left with `rest'` of `pend'`. -/
def Passes (ops : UleOps) (c : TsPacket) (pend : List Sndu) (rest : List UInt8) (done pend' : List Sndu)
    (rest' : List UInt8) : Prop :=
  ∀ ⦃E : Ctx⦄ ⦃s : Ule⦄ ⦃cs : List TsPacket⦄, AtCell E s → E.cells = c :: cs →
    Between ops E.tscc s.p pend rest → (rest ≠ [] → c.cc = E.tscc) →
    ∃ t, Leads (uleStep ops) s t ∧ AtCell ((E.enter c cs).handAll ops done) t ∧
      Between ops ((c.cc + 1) % 16) t.p pend' rest'

/-- A decoder that stands in front of `cells` with `rest` of `pend` still to come hands up `us`,
whatever the calls are that the cells come in. -/
def Hands (ops : UleOps) (pend : List Sndu) (rest : List UInt8) (us : List Sndu)
    (cells : List TsPacket) : Prop :=
  ∀ ⦃E : Ctx⦄ ⦃s : Ule⦄ ⦃calls : List (List TsPacket)⦄, AtCell E s →
    E.cells ++ calls.flatten = cells → Between ops E.tscc s.p pend rest →
    InStep E.tscc rest cells →
    ∃ t, Feed ops s calls t ∧ t.rx.map RxFrame.frame = E.out ++ E.frames ops us

theorem hands_nil (ops : UleOps) : Hands ops [] [] [] [] := by
  intro E s calls hat hcells _ _
  obtain ⟨w, hfeed, hout⟩ := feed_end ops calls hat hcells
  exact ⟨w, hfeed, hout.trans (List.append_nil _).symm⟩

/-- One cell, and the cells behind it. -/
theorem hands_cons {pend done pend' us : List Sndu} {rest rest' : List UInt8}
    (hc : Passes ops c pend rest done pend' rest') (hcells : Hands ops pend' rest' us cells)
    (hchain : (c :: cells).IsChain fun p q => q.cc = (p.cc + 1) % 16) :
    Hands ops pend rest (done ++ us) (c :: cells) := by
  intro E s calls hat hall hbet hstep
  obtain ⟨s₁, calls₁, cs, hat₁, hp, hrest, hfeed⟩ := feed_ready ops calls hat hall
  rw [← hp] at hbet
  obtain ⟨t, hlead, hat₂, hbet₂⟩ := hc hat₁ rfl hbet fun hne => hstep hne c rfl
  obtain ⟨w, hw, hout⟩ := hcells hat₂ hrest hbet₂ (inStep_tail hchain)
  refine ⟨w, hfeed (Feed.head hlead hw), ?_⟩
  rw [hout, frames_append, ← List.append_assoc]
  rfl

/-- A cell without PUSI is full of the SNDU in progress, or this ends in it. -/
theorem packs_cont {hdr : ℕ} {units : List (List UInt8)}
    (h : Packs hdr 0xff uleView (fun _ => False) rest units (c :: cells))
    (hpusi : c 1 &&& TS_PUSI = 0) :
    (∃ v rest', rest = v ++ rest' ∧ rest' ≠ [] ∧ uleView c = (none, v) ∧
      Packs hdr 0xff uleView (fun _ => False) rest' units cells) ∨
    ∃ m, uleView c = (none, rest ++ List.replicate m 0xff) ∧
      Packs hdr 0xff uleView (fun _ => False) [] units cells := by
  cases h with
  | contSplit v rest' hview _ hpacks =>
    by_cases hrest : rest' = []
    · subst hrest
      exact Or.inr ⟨0, by rw [hview]; simp, hpacks⟩
    · exact Or.inl ⟨v, rest', rfl, hrest, hview, hpacks⟩
  | contPad _ m hview _ hpacks => exact Or.inr ⟨m, hview, hpacks⟩
  | startSplit _ _ _ _ hview => exact absurd hpusi (view_some hview).1
  | startPad _ _ _ hview => exact absurd hpusi (view_some hview).1

/-- In a cell with PUSI stand the SNDUs `us₁`, and then padding or the first part of another one. -/
structure Starts (ops : UleOps) (c : TsPacket) (lead : List UInt8) (us₁ pend : List Sndu)
    (tail rest : List UInt8) : Prop where
  plain : ∀ u ∈ us₁, u.Plain
  ends : Ends ops tail pend rest
  ne : us₁ ≠ [] ∨ pend ≠ []
  view : uleView c = (some lead.length, lead ++ ((us₁.map (Sndu.bytes ops)).flatten ++ tail))
  pend : pend = [] ↔ rest = []

theorem packs_start {lead : List UInt8} {us : List Sndu}
    (h : Packs 2 0xff uleView (fun _ => False) lead (us.map (Sndu.bytes ops)) (c :: cells))
    (hplain : ∀ u ∈ us, u.Plain) (hpusi : c 1 &&& TS_PUSI ≠ 0) :
    ∃ us₁ pend us₂ tail rest, us = us₁ ++ (pend ++ us₂) ∧ Starts ops c lead us₁ pend tail rest ∧
      Packs 2 0xff uleView (fun _ => False) rest (us₂.map (Sndu.bytes ops)) cells := by
  generalize hunits : us.map (Sndu.bytes ops) = units at h
  cases h with
  | contSplit _ _ hview => exact absurd (view_none hview).1 hpusi
  | contPad _ _ hview => exact absurd (view_none hview).1 hpusi
  | startSplit _ us' v rest hview _ hv hpacks =>
    obtain ⟨us₁, us₂, rfl, rfl, hnext⟩ := List.map_eq_append_iff.mp hunits
    obtain ⟨u, us₃, rfl, hu, rfl⟩ := List.map_eq_cons_iff.mp hnext
    have hplain₁ := fun w hw => hplain w (List.mem_append_left _ hw)
    have hplain_u := hplain u (List.mem_append_right _ (List.mem_cons_self ..))
    by_cases hrest : rest = []
    · -- the last SNDU that starts in the cell ends with it
      subst hrest
      rw [List.append_nil] at hu
      refine ⟨us₁ ++ [u], [], us₃, List.replicate 0 0xff, [], by simp,
        ⟨fun w hw => ?_, .fill 0, Or.inl (by simp), ?_, fun _ => rfl, fun _ => rfl⟩, hpacks⟩
      · rcases List.mem_append.mp hw with hw | hw
        · exact hplain₁ w hw
        · rw [List.mem_singleton.mp hw]
          exact hplain_u
      · rw [hview]
        simp [hu]
    · exact ⟨us₁, [u], us₃, v, rest, rfl,
        ⟨hplain₁, .part u v rest hplain_u hv hrest hu.symm, Or.inr (List.cons_ne_nil _ _),
          by rw [hview, List.append_assoc],
          fun h => absurd h (List.cons_ne_nil _ _), fun h => absurd h hrest⟩, hpacks⟩
  | startPad _ us' m hview _ hne hpacks =>
    obtain ⟨us₁, us₂, rfl, rfl, rfl⟩ := List.map_eq_append_iff.mp hunits
    exact ⟨us₁, [], us₂, List.replicate m 0xff, [], rfl,
      ⟨fun u hu => hplain u (List.mem_append_left _ hu), .fill m,
        Or.inl fun h => hne (by rw [h]; rfl), by rw [hview, List.append_assoc],
        fun _ => rfl, fun _ => rfl⟩, hpacks⟩

/-- **A stream of cells** hands up the SNDU in progress and the SNDUs behind it. -/
theorem stream_run (halloc : ops.AllocOk) : ∀ {cells : List TsPacket} {pend us : List Sndu}
    {rest : List UInt8},
    Packs 2 0xff uleView (fun _ => False) rest (us.map (Sndu.bytes ops)) cells →
      (∀ u ∈ us, u.Plain) → (∀ c ∈ cells, Sound c) →
      (cells.IsChain fun p q => q.cc = (p.cc + 1) % 16) → (pend = [] ↔ rest = []) →
      Hands ops pend rest (pend ++ us) cells := by
  intro cells
  induction cells with
  | nil =>
    intro pend us rest h _ _ _ hpend
    obtain ⟨rfl, hus⟩ := h.of_no_cells
    obtain rfl := List.map_eq_nil_iff.mp hus
    obtain rfl := hpend.mpr rfl
    exact hands_nil ops
  | cons c cells ih =>
    intro pend us rest h hplain hsound hchain hpend
    have hc := hsound c (List.mem_cons_self ..)
    have hsound' := fun d hd => hsound d (List.mem_cons_of_mem _ hd)
    by_cases hpusi : c 1 &&& TS_PUSI = 0
    · rcases packs_cont h hpusi with ⟨v, rest', rfl, hrest, hview, hpacks⟩ | ⟨m, hview, hpacks⟩
      · have hne : v ++ rest' ≠ [] := List.append_ne_nil_of_right_ne_nil _ hrest
        have hpend' : pend = [] ↔ rest' = [] :=
          hpend.trans ⟨fun h => absurd h hne, fun h => absurd h hrest⟩
        have hfull : Passes ops c pend (v ++ rest') [] pend rest' := by
          intro E s cs hat hcells hbet hcc
          rw [handAll_nil]
          exact cell_full halloc hat hcells hc hbet hrest (hcc hne) hview
        have hall := hands_cons hfull (ih hpacks hplain hsound' hchain.tail hpend') hchain
        rwa [List.nil_append] at hall
      · exact hands_cons
          (fun _ _ _ hat hcells hbet hcc => cell_end halloc hat hcells hc hbet hcc hview)
          (ih hpacks hplain hsound' hchain.tail ⟨fun _ => rfl, fun _ => rfl⟩) hchain
    · obtain ⟨us₁, pend', us₂, tail, rest', rfl, hst, hpacks⟩ := packs_start h hplain hpusi
      have hplain₂ : ∀ u ∈ us₂, u.Plain := fun u hu =>
        hplain u (List.mem_append_right _ (List.mem_append_right _ hu))
      rw [← List.append_assoc]
      exact hands_cons
        (fun _ _ _ hat hcells hbet hcc => cell_start halloc hat hcells hc hbet hcc hst.plain
          hst.ends hst.ne hst.view)
        (ih hpacks hplain₂ hsound' hchain.tail hst.pend) hchain

/-- The frames of a decapsulator that takes every address are those of all SNDUs. -/
theorem frames_promisc (ops : UleOps) (hmode : E.rxMode = .RX_MODE_PROMISC) (us : List Sndu) :
    E.frames ops us = us.map Sndu.frame := by
  rw [Ctx.frames, List.filter_eq_self.mpr]
  intro u _
  exact decide_eq_true fun _ _ => Or.inl hmode

/-- **Decapsulation is exact.**  A decapsulator in promiscuous mode that has just been started is
called with a stream of SNDUs, in any number of calls, and hands up one frame for each of them. -/
theorem decapsulation_exact (ops : UleOps) (halloc : ops.AllocOk) (multiMacs : List (List UInt8))
    (us : List Sndu) (hus : ∀ u ∈ us, u.Plain) (calls : List (List TsPacket))
    (h : Carries ops 2 [] us calls.flatten) :
    ∃ t, Feed ops (Ule.init .RX_MODE_PROMISC multiMacs) calls t ∧
      t.rx.map RxFrame.frame = us.map Sndu.frame := by
  have hidle : Between ops 0 (Ule.init .RX_MODE_PROMISC multiMacs).p [] [] :=
    .idle rfl ⟨rfl, rfl, rfl, rfl, rfl⟩
  have hrun := stream_run halloc h.packs hus h.sound h.continuous
    ⟨fun _ => rfl, fun _ => rfl⟩
  rcases calls with _ | ⟨cs, calls⟩
  · obtain rfl : us = [] := List.map_eq_nil_iff.mp h.packs.of_no_cells.2
    exact ⟨_, .last (Leads.refl _) rfl, rfl⟩
  · have hat := atCell_call (s := Ule.init .RX_MODE_PROMISC multiMacs)
      (E := ⟨[], 0, .RX_MODE_PROMISC, multiMacs, []⟩) cs rfl rfl rfl
    obtain ⟨t, hfeed, hout⟩ := hrun hat rfl hidle fun hne => absurd rfl hne
    refine ⟨t, .call (Leads.refl _) rfl hfeed, ?_⟩
    rw [hout, frames_promisc ops rfl]
    rfl

/-! ## On concrete cells -/

theorem uleView_pusi (cc : ℕ) (b : UInt8) (bs : List UInt8) (h : (b :: bs).length ≤ 184) :
    uleView (uleCell true cc (b :: bs) h) =
      (some b.toNat, bs ++ List.replicate (183 - bs.length) 0xff) := by
  have hlen : 184 - (b :: bs).length = 183 - bs.length := by
    rw [List.length_cons]
    omega
  rw [uleView, if_pos (by change (0x40 : UInt8) &&& TS_PUSI ≠ 0; decide), ← hlen]
  rfl

theorem uleView_cont (cc : ℕ) (bs : List UInt8) (h : bs.length ≤ 184) :
    uleView (uleCell false cc bs h) = (none, bs ++ List.replicate (184 - bs.length) 0xff) := by
  rw [uleView, if_neg (by change ¬ (0 : UInt8) &&& TS_PUSI ≠ 0; decide)]
  rfl

theorem sound_uleCell (pusi : Bool) {cc : ℕ} (hcc : cc < 16) (bs : List UInt8)
    (h : bs.length ≤ 184) : Sound (uleCell pusi cc bs h) := by
  have hsc : ∀ k : Fin 16, UInt8.ofNat (0x10 + k.val) &&& TS_SC = 0 := by decide
  refine ⟨rfl, ?_, hsc ⟨cc, hcc⟩⟩
  cases pusi with
  | true => exact (by decide : (0x40 : UInt8) &&& TS_TEI = 0)
  | false => exact (by decide : (0 : UInt8) &&& TS_TEI = 0)

theorem cc_uleCell (pusi : Bool) {cc : ℕ} (hcc : cc < 16) (bs : List UInt8)
    (h : bs.length ≤ 184) : (uleCell pusi cc bs h).cc = cc := by
  have hcc' : ∀ k : Fin 16, (UInt8.ofNat (0x10 + k.val) &&& 0x0f).toNat = k.val := by decide
  exact hcc' ⟨cc, hcc⟩

/-- An SNDU with an IPv4 payload of `n` bytes. -/
def ipSndu (n : ℕ) (h : 0 < n := by decide) (h' : n ≤ 32763 := by decide) : Sndu where
  dest := none
  type := 0x0800
  payload := List.replicate n 0
  length_dest := length_dest_none
  type_lt := by decide
  payload_pos _ := by
    intro h0
    have hlen := congrArg List.length h0
    rw [List.length_replicate] at hlen
    exact absurd hlen (Nat.ne_of_gt h)
  length_le := by
    rw [List.length_replicate]
    change 0 + n + 4 ≤ 32767
    omega

theorem seven_pos : 0 < 7 := by decide

theorem seven_le : 7 ≤ 32763 := by decide

/-- A cell with `ipSndu 7`. -/
def ipCell : TsPacket :=
  uleCell true 5 (0 :: (ipSndu 7 seven_pos seven_le).bytes plainOps) (by decide +kernel)

theorem carries_ip : Carries plainOps 2 [] [ipSndu 7] [[ipCell]].flatten := by
  refine ⟨.startPad [] [(ipSndu 7).bytes plainOps] 168 ?_ (fun h => h.elim)
    (List.cons_ne_nil _ _) .done, ?_, List.isChain_singleton _⟩
  · exact (uleView_pusi ..).trans (by decide +kernel)
  · intro c hc
    obtain rfl := List.mem_singleton.mp hc
    exact sound_uleCell true (by decide) _ _

theorem lenWord_ipSndu (n : ℕ) (h : 0 < n) (h' : n ≤ 32763) :
    (ipSndu n h h').lenWord = n + 4 + 0x8000 := by
  change (List.replicate n (0 : UInt8)).length + 4 + 0x8000 = n + 4 + 0x8000
  rw [List.length_replicate]

theorem plain_ipSndu {n : ℕ} (h : 0 < n) (h' : n ≤ 32762) :
    (ipSndu n h (Nat.le_succ_of_le h')).Plain := by
  refine ⟨by change 0x0600 ≤ 0x0800; decide, ?_⟩
  rw [lenWord_ipSndu]
  omega

/-- A cell with `ipSndu 7`, `ipSndu 5` and the first part of `ipSndu 200`. -/
def sharedCell : TsPacket :=
  uleCell true 5 (0 :: ((ipSndu 7).bytes plainOps ++ (ipSndu 5).bytes plainOps ++
    ((ipSndu 200).bytes plainOps).take 155)) (by decide +kernel)

/-- The cell with the rest of `ipSndu 200`. -/
def restCell : TsPacket := uleCell false 6 (((ipSndu 200).bytes plainOps).drop 155) (by decide +kernel)

theorem length_sharedCell : ((ipSndu 7).bytes plainOps ++ (ipSndu 5).bytes plainOps ++
    ((ipSndu 200).bytes plainOps).take 155).length = 183 := by decide +kernel

theorem carries_shared : Carries plainOps 2 [] [ipSndu 7, ipSndu 5, ipSndu 200] [[sharedCell], [restCell]].flatten := by
  have hfirst : uleView sharedCell = (some ([] : List UInt8).length,
      [] ++ [(ipSndu 7).bytes plainOps, (ipSndu 5).bytes plainOps].flatten ++
        ((ipSndu 200).bytes plainOps).take 155) := by
    rw [sharedCell, uleView_pusi, length_sharedCell, Nat.sub_self, List.replicate_zero, List.append_nil,
      List.flatten_cons, List.flatten_cons, List.flatten_nil, List.append_nil]
    rfl
  have hsecond : uleView restCell =
      (none, ((ipSndu 200).bytes plainOps).drop 155 ++ List.replicate 131 0xff) := by
    have hlen : (((ipSndu 200).bytes plainOps).drop 155).length = 53 := by decide +kernel
    rw [restCell, uleView_cont, hlen]
  have hpacks : Packs 2 0xff uleView (fun _ => False) [] _ [sharedCell, restCell] :=
    .startSplit [] _ _ _ hfirst (fun h => h.elim) (show 2 ≤ _ by decide +kernel)
      (.contPad _ 131 hsecond (fun h => h.elim) .done)
  rw [List.take_append_drop] at hpacks
  refine ⟨hpacks, fun c hc => ?_, List.isChain_pair.mpr ?_⟩
  · rcases List.mem_pair.mp hc with rfl | rfl
    · exact sound_uleCell true (by decide) _ _
    · exact sound_uleCell false (by decide) _ _
  · exact (cc_uleCell false (by decide) _ _).trans
      (congrArg (fun n => (n + 1) % 16) (cc_uleCell true (by decide : 5 < 16) _ _)).symm

/-- Two SNDUs in one cell, and one that begins in it and ends in the next, which is another call. -/
theorem decapsulation_exact_plain :
    ∃ t, Feed plainOps (Ule.init .RX_MODE_PROMISC []) [[sharedCell], [restCell]] t ∧
      t.rx.map RxFrame.frame = [ipSndu 7, ipSndu 5, ipSndu 200].map Sndu.frame := by
  refine decapsulation_exact plainOps (fun _ _ => rfl) [] _ (fun u hu => ?_) _ carries_shared
  simp only [List.mem_cons, List.not_mem_nil, or_false] at hu
  rcases hu with rfl | rfl | rfl <;> exact plain_ipSndu _ (by decide)

/-- The rest of an SNDU can be sent in cells without PUSI. -/
theorem exists_cells (hdr : ℕ) (bs : List UInt8) : ∀ n, bs.length ≤ n → ∀ cc < 16,
    ∃ cells : List TsPacket, Packs hdr 0xff uleView (fun _ => False) bs [] cells ∧
      (∀ c ∈ cells, Sound c ∧ c 1 &&& TS_PUSI = 0) ∧
      (cells.IsChain fun p q => q.cc = (p.cc + 1) % 16) ∧ ∀ c ∈ cells.head?, c.cc = cc := by
  intro n
  induction n generalizing bs with
  | zero =>
    intro hn cc hcc
    obtain rfl := List.length_eq_zero_iff.mp (Nat.le_zero.mp hn)
    exact ⟨[], .done, by rintro _ ⟨⟩, List.isChain_nil, by rintro _ ⟨⟩⟩
  | succ n ih =>
    intro hn cc hcc
    have hcons : ∀ (v : List UInt8) (hv : v.length ≤ 184) {cells : List TsPacket},
        (∀ c ∈ cells, Sound c ∧ c 1 &&& TS_PUSI = 0) →
        (cells.IsChain fun p q => q.cc = (p.cc + 1) % 16) →
        (∀ c ∈ cells.head?, c.cc = (cc + 1) % 16) →
        (∀ c ∈ uleCell false cc v hv :: cells, Sound c ∧ c 1 &&& TS_PUSI = 0) ∧
          ((uleCell false cc v hv :: cells).IsChain fun p q => q.cc = (p.cc + 1) % 16) ∧
          ∀ c ∈ (uleCell false cc v hv :: cells).head?, c.cc = cc := by
      intro v hv cells hcells hchain hhead
      refine ⟨?_, ?_, ?_⟩
      · intro c hc
        rcases List.mem_cons.mp hc with rfl | hc
        · exact ⟨sound_uleCell false hcc v hv, (by decide : (0 : UInt8) &&& TS_PUSI = 0)⟩
        · exact hcells c hc
      · refine List.isChain_cons.mpr ⟨fun d hd => ?_, hchain⟩
        rw [hhead d hd, cc_uleCell false hcc v hv]
      · intro c hc
        obtain rfl := Option.some.inj hc
        exact cc_uleCell false hcc v hv
    by_cases hlen : bs.length ≤ 184
    · exact ⟨[uleCell false cc bs hlen], .contPad bs _ (uleView_cont cc bs hlen) (fun h => h.elim)
        .done, hcons bs hlen (by rintro _ ⟨⟩) List.isChain_nil (by rintro _ ⟨⟩)⟩
    · have htake : (bs.take 184).length = 184 := by
        rw [List.length_take]
        omega
      obtain ⟨cells, hpacks, hcells, hchain, hhead⟩ := ih (bs.drop 184)
        (by rw [List.length_drop]; omega) ((cc + 1) % 16) (Nat.mod_lt _ (by decide))
      have hview : uleView (uleCell false cc (bs.take 184) (Nat.le_of_eq htake)) =
          (none, bs.take 184) := by
        rw [uleView_cont, htake, Nat.sub_self, List.replicate_zero, List.append_nil]
      have hsplit := Packs.contSplit (bs.take 184) (bs.drop 184) hview (fun h => h.elim) hpacks
      rw [List.take_append_drop] at hsplit
      exact ⟨_, hsplit, hcons _ _ hcells hchain hhead⟩

/-- A decoder that waits for PUSI gets through cells without it. -/
theorem skip_cells (ops : UleOps) : ∀ (cells : List TsPacket) {E : Ctx} {s : Ule}, AtCell E s →
    E.cells = cells → (∀ c ∈ cells, Sound c ∧ c 1 &&& TS_PUSI = 0) → s.p.needPusi = true →
      ∃ t, Leads (uleStep ops) s t ∧ t.pc = .done ∧ t.rx.map RxFrame.frame = E.out := by
  intro cells
  induction cells with
  | nil =>
    intro E s hat hcells _ _
    exact ⟨_, Leads.head (return_step ops hat hcells) (Leads.refl _), rfl, hat.out⟩
  | cons c cells ih =>
    intro E s hat hcells hall hneed
    obtain ⟨hc, hp⟩ := hall c (List.mem_cons_self ..)
    obtain ⟨t, hlead, hat', hpt⟩ := skip_cell ops hat hcells hc hneed hp
    obtain ⟨w, hlead', hpc, hout⟩ := ih hat' rfl (fun d hd => hall d (List.mem_cons_of_mem _ hd))
      (by rw [hpt]; exact hneed)
    exact ⟨w, hlead.trans hlead', hpc, hout⟩

/-- What `decapsulation_exact` says, where an SNDU starts in a cell if `hdr` of its bytes fit, and
for all SNDUs with `ok`. -/
def Exact (ops : UleOps) (hdr : ℕ) (ok : Sndu → Prop) : Prop :=
  ∀ (us : List Sndu) (calls : List (List TsPacket)), (∀ u ∈ us, ok u) →
    Carries ops hdr [] us calls.flatten →
    ∃ t, Feed ops (Ule.init .RX_MODE_PROMISC []) calls t ∧
      t.rx.map RxFrame.frame = us.map Sndu.frame

/-- An SNDU fills a cell but for the first `k` bytes of another one.  Where the decoder stops at
these bytes, the other SNDU is lost. -/
theorem not_exact (hdr k : ℕ) (ok : Sndu → Prop) (u v : Sndu) (hu : ok u) (hv : ok v)
    (htype : ETH_P_802_3_MIN ≤ u.type) (hlen : (u.bytes plainOps).length + k = 183)
    (hhdr : hdr ≤ k) (hk : k ≤ (v.bytes plainOps).length)
    (hstop : k < 2 ∨ ∃ bs', (v.bytes plainOps).take k = 0xff :: 0xff :: bs') :
    ¬ Exact plainOps hdr ok := by
  intro hexact
  have htake : ((v.bytes plainOps).take k).length = k := by
    rw [List.length_take, Nat.min_eq_left hk]
  have hpart : (u.bytes plainOps ++ (v.bytes plainOps).take k).length = 183 := by
    rw [List.length_append, htake, hlen]
  have hcell : (0 :: (u.bytes plainOps ++ (v.bytes plainOps).take k)).length ≤ 184 := by
    rw [List.length_cons, hpart]
  obtain ⟨cells, hpacks, hcells, hchain, hhead⟩ :=
    exists_cells hdr ((v.bytes plainOps).drop k) _ (Nat.le_refl _) 1 (by decide)
  have hview := uleView_pusi 0 0 _ hcell
  have hsound := sound_uleCell true (by decide : 0 < 16) _ hcell
  have hcc := cc_uleCell true (by decide : 0 < 16) _ hcell
  generalize uleCell true 0 (0 :: (u.bytes plainOps ++ (v.bytes plainOps).take k)) hcell = c
    at hview hsound hcc
  rw [hpart, Nat.sub_self, List.replicate_zero, List.append_nil] at hview
  have hcarries : Carries plainOps hdr [] [u, v] [c :: cells].flatten := by
    rw [List.flatten_singleton]
    refine ⟨?_, ?_, ?_⟩
    · have hunits : [u, v].map (Sndu.bytes plainOps) = [u.bytes plainOps] ++
          ((v.bytes plainOps).take k ++ (v.bytes plainOps).drop k) :: [] := by
        rw [List.take_append_drop]
        rfl
      rw [hunits]
      refine .startSplit [] _ _ _ (hview.trans ?_) (fun h => h.elim) (by rw [htake]; exact hhdr)
        hpacks
      simp
    · intro d hd
      rcases List.mem_cons.mp hd with rfl | hd
      · exact hsound
      · exact (hcells d hd).1
    · refine List.isChain_cons.mpr ⟨fun d hd => ?_, hchain⟩
      rw [hhead d hd, hcc]
  obtain ⟨w, hfeed, hout⟩ := hexact [u, v] [c :: cells] (by simp [hu, hv]) hcarries
  have hat := atCell_call (s := Ule.init .RX_MODE_PROMISC [])
    (E := ⟨[], 0, .RX_MODE_PROMISC, [], []⟩) (c :: cells) rfl rfl rfl
  obtain ⟨hpusi, hpf, hbody⟩ := view_some hview
  obtain ⟨t₁, hlead₁, hpc₁, hr₁, hp₁⟩ := sync_cell plainOps hat rfl hsound rfl (Nat.zero_le _)
    hpusi (by rw [hpf]; decide)
  rw [hpf, ← List.drop_drop, hbody] at hr₁
  have hf₁ : Fresh t₁.p := by
    rw [hp₁]
    exact ⟨rfl, rfl, rfl, rfl, rfl⟩
  obtain ⟨t₂, hlead₂, hpc₂, hf₂, hr₂⟩ := unit_run (fun _ _ => rfl) htype hpc₁ hf₁ hr₁
  rw [show k < 2 ↔ ((v.bytes plainOps).take k).length < 2 by rw [htake]] at hstop
  obtain ⟨hat₃, hbet₃⟩ := more_stop plainOps hpc₂ hf₂ hr₂ hstop
  have hneed : (uleStep plainOps t₂).p.needPusi = true := by
    generalize (uleStep plainOps t₂).p = p at hbet₃
    cases hbet₃ with
    | idle hneed => exact hneed
  obtain ⟨t₃, hlead₄, hpc₄, hout₄⟩ := skip_cells plainOps cells hat₃ rfl hcells hneed
  obtain rfl := hfeed.unique (.call (Leads.refl _) rfl (.last (hlead₁.trans (hlead₂.trans
    (Leads.head rfl hlead₄))) hpc₄))
  have hone : (w.rx.map RxFrame.frame).length ≤ 1 := by
    rw [hout₄]
    change ([] ++ if u.Wanted plainOps .RX_MODE_PROMISC [] then [u.frame] else []).length ≤ 1
    split_ifs
    · exact Nat.le_refl 1
    · exact Nat.zero_le 1
  rw [hout] at hone
  exact absurd hone (Nat.not_le.mpr (Nat.lt_succ_self 1))

theorem length_ipSndu (ops : UleOps) (n : ℕ) (h : 0 < n) (h' : n ≤ 32763) :
    ((ipSndu n h h').bytes ops).length = n + 8 := by
  rw [Sndu.length_bytes, Sndu.len]
  change (List.replicate n (0 : UInt8)).length + 4 + 4 = n + 8
  rw [List.length_replicate]

/-- The SNDU whose length field reads as the End Indicator starts with it. -/
theorem take_endSndu (k : ℕ) (h : 0 < 32763) (h' : 32763 ≤ 32763) :
    ∃ bs', ((ipSndu 32763 h h').bytes plainOps).take (k + 2) = 0xff :: 0xff :: bs' := by
  have hword : bytes16 (32763 + 4 + 0x8000) = [0xff, 0xff] := by decide
  rw [bytes_eq, lenWord_ipSndu, hword]
  generalize bytes16 (ipSndu 32763 h h').type ++ Sndu.data plainOps (ipSndu 32763 h h') = rest
  exact ⟨rest.take k, rfl⟩

/-- Neither restriction can be dropped: an SNDU that starts in the last byte of a cell is lost, and
so is one whose length field reads as the End Indicator. -/
theorem decapsulation_loses :
    ¬ Exact plainOps 1 Sndu.Plain ∧ ¬ Exact plainOps 2 fun u => ETH_P_802_3_MIN ≤ u.type := by
  constructor
  · refine not_exact 1 1 _ (ipSndu 174) (ipSndu 7) (plain_ipSndu _ (by decide))
      (plain_ipSndu _ (by decide)) (by decide) ?_ (Nat.le_refl 1) ?_ (Or.inl (by decide))
    · rw [length_ipSndu]
    · rw [length_ipSndu]
      decide
  · refine not_exact 2 168 _ (ipSndu 7) (ipSndu 32763) ?_ ?_ ?_ ?_ (by decide) ?_
      (Or.inr (take_endSndu 166 _ _))
    · change 0x0600 ≤ 0x0800
      decide
    · change 0x0600 ≤ 0x0800
      decide
    · change 0x0600 ≤ 0x0800
      decide
    · rw [length_ipSndu]
    · rw [length_ipSndu]
      decide

end Net
end TbsMedia
