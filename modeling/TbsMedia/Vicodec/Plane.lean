import TbsMedia.Lib.Stores
import TbsMedia.Vicodec.FrameLayout
import TbsMedia.Vicodec.Stream

/-!
# A plane on both sides

A plane that the encoder has compressed is decoded, and the decoder stores what the encoder keeps as
reference, provided that both have predicted from the same samples.

* `encodePlane_streams`, `encodePlane_ref`: what `encode_plane` writes and keeps.
* `decodePlane_streams`: what `decode_plane` makes of it.
* `blockOf_coded`: a block on both sides.
* `decodeComponents_encode`: all planes of a frame.
-/

namespace TbsMedia
namespace Vicodec

open Lib

variable {p : EncodeParams} {q : DecodeParams}

/-! ## One plane -/

/-- The blocks of a plane. -/
def blockCount (height width : ℕ) : ℕ := roundUp8 height / 8 * (roundUp8 width / 8)

/-- **What a plane is compressed to.** -/
theorem encodePlane_streams {ref : Mem UInt8} {rlco : List ℕ} {rlcoMax : ℤ} {height width : ℕ}
    (h : (encodePlane p ref rlco rlcoMax height width).unencoded = false) :
    ∃ gs : List Group, (∀ g ∈ gs, g.Valid) ∧
      (encodePlane p ref rlco rlcoMax height width).rlco = rlco ++ gs.flatMap Group.words ∧
      gs.flatMap Group.expand =
        (List.range (blockCount height width)).map (p.coded (roundUp8 width / 8) ref) := by
  unfold encodePlane at h ⊢
  dsimp only at h ⊢
  split_ifs at h ⊢ with hloop
  have hrun : encodeBlocks p (roundUp8 width / 8) rlcoMax (List.range (blockCount height width))
      ⟨rlco, ref, false, 0⟩ = (false, (encodeBlocks p (roundUp8 width / 8) rlcoMax
        (List.range (blockCount height width)) ⟨rlco, ref, false, 0⟩).2) :=
    Prod.ext (Bool.eq_false_iff.2 hloop) rfl
  obtain ⟨gs, hgs⟩ := encodeBlocks_streams List.nodup_range hrun (Streams.start rlco)
  exact ⟨gs, hgs.valid, hgs.words, hgs.expand⟩

/-- **What the encoder keeps of a plane that it has compressed.** -/
theorem encodePlane_ref (hnext : p.nextIsIntra = false) {ref : Mem UInt8} {rlco : List ℕ} {rlcoMax : ℤ}
    {height width : ℕ} (h : (encodePlane p ref rlco rlcoMax height width).unencoded = false) {k : ℕ}
    (hk : k < blockCount height width) (y x : Fin 8) :
    (encodePlane p ref rlco rlcoMax height width).ref (refCell k y x) =
      clampSample (((p.code (roundUp8 width / 8) ref k).deFwht ref (64 * k)).at y x) := by
  unfold encodePlane at h ⊢
  dsimp only at h ⊢
  split_ifs at h ⊢ with hloop
  have hrun : encodeBlocks p (roundUp8 width / 8) rlcoMax (List.range (blockCount height width))
      ⟨rlco, ref, false, 0⟩ = (false, (encodeBlocks p (roundUp8 width / 8) rlcoMax
        (List.range (blockCount height width)) ⟨rlco, ref, false, 0⟩).2) :=
    Prod.ext (Bool.eq_false_iff.2 hloop) rfl
  exact encodeBlocks_ref hnext List.nodup_range hrun (List.mem_range.2 hk) y x

/-- Planes are written behind what there is. -/
theorem encodePlane_rlco (p : EncodeParams) (ref : Mem UInt8) (rlco : List ℕ) (rlcoMax : ℤ)
    (height width : ℕ) :
    ∃ rest, (encodePlane p ref rlco rlcoMax height width).rlco = rlco ++ rest := by
  cases h : (encodePlane p ref rlco rlcoMax height width).unencoded with
  | false =>
    obtain ⟨gs, -, heq, -⟩ := encodePlane_streams h
    exact ⟨_, heq⟩
  | true =>
    unfold encodePlane at h ⊢
    dsimp only at h ⊢
    split_ifs at h ⊢
    exact ⟨_, rfl⟩

/-- **What the decoder makes of groups in the payload.** -/
theorem decodePlane_streams {rlco height width : ℕ} {gs : List Group} {code : ℕ → Blocktype × Block}
    (hvalid : ∀ g ∈ gs, g.Valid) (hcode : gs.flatMap Group.expand =
      (List.range (blockCount height width)).map code)
    (hwords : Reads q.data rlco (gs.flatMap Group.words))
    (hend : ((rlco + (gs.flatMap Group.words).length : ℕ) : ℤ) ≤ q.endOfRlcoBuf + 1) (coeffs : Block) :
    (decodePlane q rlco coeffs height width false).ok = true ∧
      (decodePlane q rlco coeffs height width false).rlco = rlco + (gs.flatMap Group.words).length ∧
      (decodePlane q rlco coeffs height width false).writes =
        q.dst.blockStores (roundUp8 width / 8) (List.range (blockCount height width))
          fun k => q.blockOf (roundUp8 width / 8) k (code k) := by
  have hzip : ∀ l : List ℕ, (l.zip (l.map code)).flatMap (fun z =>
      q.fill (roundUp8 width / 8) z.1 (q.blockOf (roundUp8 width / 8) z.1 z.2)) =
        q.dst.blockStores (roundUp8 width / 8) l fun k => q.blockOf (roundUp8 width / 8) k (code k) := by
    intro l
    induction l with
    | nil => rfl
    | cons k l ih => exact congrArg (_ ++ ·) ih
  have hlen : (List.range (blockCount height width)).length =
      (List.replicate 0 ((Blocktype.iblock, coeffs) : Blocktype × Block) ++
        gs.flatMap Group.expand).length := by
    rw [hcode, List.replicate_zero, List.nil_append, List.length_map]
  obtain ⟨hok, hpos, hlog⟩ := decodeBlocks_codes (q := q) (s := ⟨rlco, coeffs, 0, coeffs, 0, [], []⟩)
    .iblock coeffs (fun h => absurd rfl h) hvalid hwords hend hlen
  refine ⟨hok, hpos, ?_⟩
  rw [hcode, List.replicate_zero, List.nil_append, List.nil_append, hzip] at hlog
  exact hlog

/-! ## One block -/

/-- The decoder predicts block number `k` from the samples that the encoder predicts it from. -/
def SameRef (q : DecodeParams) (columns : ℕ) (ref : Mem UInt8) (k : ℕ) : Prop :=
  ∃ m, q.ref = some m ∧ ∀ y x : Fin 8, m (sampleAddr
    (blockAddr q.refPlane.base q.refPlane.stride q.refPlane.step columns k) q.refPlane.stride
      q.refPlane.step y x) = ref (refCell k y x)

/-- **A block that is coded is reconstructed alike on both sides.** -/
theorem blockOf_coded {columns k : ℕ} {ref : Mem UInt8}
    (hsame : p.isIntra = false → SameRef q columns ref k) :
    q.blockOf columns k (p.coded columns ref k) = (p.code columns ref k).deFwht ref (64 * k) := by
  have hde := @code_deCoeffs p columns ref k
  unfold DecodeParams.blockOf EncodeParams.coded CodedBlock.deFwht
  cases htype : (p.code columns ref k).blocktype with
  | iblock =>
    rw [htype, if_neg (by decide)] at hde
    have hinter : q.isInter (header .iblock) = false := rfl
    unfold DecodeParams.predict DecodeParams.reconstruct
    dsimp only
    rw [hde, hinter, if_neg (by decide : ¬Blocktype.iblock = .pblock)]
    cases q.ref with
    | none => rfl
    | some m => exact if_neg (by decide)
  | pblock =>
    rw [htype, if_pos rfl] at hde
    have hintra : p.isIntra = false := by
      refine Bool.eq_false_iff.2 fun h => ?_
      have h' := @code_isIntra p columns h ref k
      rw [htype] at h'
      exact absurd h' (by decide)
    obtain ⟨m, hm, hcells⟩ := hsame hintra
    have hinter : q.isInter (header .pblock) = true := by
      unfold DecodeParams.isInter
      rw [hm]
      rfl
    unfold DecodeParams.predict DecodeParams.reconstruct
    dsimp only
    rw [hde, hinter, hm]
    dsimp only
    rw [if_pos (by decide), if_pos rfl]
    unfold addDeltas
    refine congrArg Block.ofFn (funext fun y => funext fun x => ?_)
    rw [hcells, sampleAddr_ref]
    rfl

/-! ## All planes -/

variable {P : FrameParams} {Q : FrameDecodeParams} {cs : List Component} {s : FrameEncoding}

/-- The planes of a list, one after the other. -/
def FrameParams.encodeAll (P : FrameParams) (cs : List Component) (s : FrameEncoding) : FrameEncoding :=
  cs.foldl (encodeComponent P) s

theorem encodeAll_cons (P : FrameParams) (c : Component) (cs : List Component) (s : FrameEncoding) :
    P.encodeAll (c :: cs) s = P.encodeAll cs (encodeComponent P s c) := rfl

theorem encodeAll_rlco (P : FrameParams) (cs : List Component) (s : FrameEncoding) :
    ∃ rest, (P.encodeAll cs s).rlco = s.rlco ++ rest := by
  induction cs generalizing s with
  | nil => exact ⟨[], (List.append_nil _).symm⟩
  | cons c cs ih =>
    obtain ⟨rest, hrest⟩ := ih (encodeComponent P s c)
    obtain ⟨words, hwords⟩ : ∃ words, (planeEncoding P s c).rlco = s.rlco ++ words :=
      encodePlane_rlco _ _ _ _ _ _
    refine ⟨words ++ rest, ?_⟩
    rw [encodeAll_cons, hrest, ← List.append_assoc, ← hwords]
    rfl

/-- Planes that are not in the list are left alone. -/
theorem encodeAll_of_notMem {c : Component} (hc : c ∉ cs) :
    (P.encodeAll cs s).ref c = s.ref c ∧ (P.encodeAll cs s).unencoded c = s.unencoded c := by
  induction cs generalizing s with
  | nil => exact ⟨rfl, rfl⟩
  | cons d cs ih =>
    rw [List.mem_cons, not_or] at hc
    obtain ⟨href, hun⟩ := ih (s := encodeComponent P s d) hc.2
    rw [encodeAll_cons]
    exact ⟨href.trans (Function.update_of_ne hc.1 _ _), hun.trans (Function.update_of_ne hc.1 _ _)⟩

/-- What there is of a plane behind the frame is what its call of `encode_plane` has left. -/
theorem encodeAll_of_mem (hnd : cs.Nodup) {c : Component} (hc : c ∈ cs) : ∃ rlco rlcoMax,
    (P.encodeAll cs s).ref c =
      (encodePlane (P.plane c) (s.ref c) rlco rlcoMax (P.size c).2 (P.size c).1).ref ∧
    (P.encodeAll cs s).unencoded c =
      (encodePlane (P.plane c) (s.ref c) rlco rlcoMax (P.size c).2 (P.size c).1).unencoded := by
  induction cs generalizing s with
  | nil => simp at hc
  | cons d cs ih =>
    rw [List.nodup_cons] at hnd
    rw [encodeAll_cons]
    rcases List.mem_cons.1 hc with rfl | hc
    · obtain ⟨href, hun⟩ := encodeAll_of_notMem (P := P) (s := encodeComponent P s c) hnd.1
      exact ⟨_, _, href.trans (Function.update_self _ _ _), hun.trans (Function.update_self _ _ _)⟩
    · have hne : c ≠ d := fun heq => hnd.1 (heq ▸ hc)
      obtain ⟨rlco, rlcoMax, href, hun⟩ := ih (s := encodeComponent P s d) hnd.2 hc
      have hsame : (encodeComponent P s d).ref c = s.ref c := Function.update_of_ne hne _ _
      rw [hsame] at href hun
      exact ⟨rlco, rlcoMax, href, hun⟩

/-- A plane that has been compressed in front of others. -/
theorem planeEncoding_streams {c : Component} (hc : c ∉ cs)
    (h : (P.encodeAll (c :: cs) s).unencoded c = false) :
    ∃ gs : List Group, (∀ g ∈ gs, g.Valid) ∧
      (encodeComponent P s c).rlco = s.rlco ++ gs.flatMap Group.words ∧
      gs.flatMap Group.expand = (List.range (blockCount (P.size c).2 (P.size c).1)).map
        ((P.plane c).coded (roundUp8 (P.size c).1 / 8) (s.ref c)) := by
  have hself : (encodeComponent P s c).unencoded c = (planeEncoding P s c).unencoded :=
    Function.update_self _ _ _
  have hun : (planeEncoding P s c).unencoded = false := by
    rw [← hself, ← (encodeAll_of_notMem (P := P) hc).2]
    exact h
  exact encodePlane_streams hun

/-- What the decoder stores of a plane that has been coded against a reference. -/
def planeStores (P : FrameParams) (Q : FrameDecodeParams) (ref : Component → Mem UInt8) (c : Component) :
    List (ℕ × UInt8) :=
  (Q.dstPlane c).blockStores (roundUp8 (P.size c).1 / 8)
    (List.range (blockCount (P.size c).2 (P.size c).1)) fun k =>
      (Q.plane c).blockOf (roundUp8 (P.size c).1 / 8) k
        ((P.plane c).coded (roundUp8 (P.size c).1 / 8) (ref c) k)

/-- **A frame whose planes have all been compressed is decoded.** -/
theorem decodeComponents_encode (hnd : cs.Nodup) (hsize : ∀ c ∈ cs, Q.planeSize c = P.size c)
    (hcomp : ∀ c ∈ cs, (P.encodeAll cs s).unencoded c = false) (hraw : ∀ c ∈ cs, Q.uncompressed c = false)
    (hwords : Reads Q.data 0 (P.encodeAll cs s).rlco)
    (hend : ((P.encodeAll cs s).rlco.length : ℤ) ≤ Q.endOfRlcoBuf + 1) (coeffs : Block) :
    (decodeComponents Q cs s.rlco.length coeffs).ok = true ∧
      (decodeComponents Q cs s.rlco.length coeffs).writes =
        cs.flatMap fun c => (planeStores P Q s.ref c).map (Prod.mk c) := by
  induction cs generalizing s coeffs with
  | nil => exact ⟨rfl, rfl⟩
  | cons c cs ih =>
    rw [List.nodup_cons] at hnd
    rw [encodeAll_cons] at hwords hend
    obtain ⟨gs, hvalid, hrlco', hcode⟩ := planeEncoding_streams hnd.1 (hcomp c List.mem_cons_self)
    obtain ⟨rest, hrest⟩ := encodeAll_rlco P cs (encodeComponent P s c)
    have hplane : Reads (Q.plane c).data s.rlco.length (gs.flatMap Group.words) := by
      rw [hrest, hrlco', List.append_assoc] at hwords
      have h := (reads_append.1 (reads_append.1 hwords).2).1
      rwa [Nat.zero_add] at h
    have hlen : (((s.rlco.length + (gs.flatMap Group.words).length : ℕ)) : ℤ) ≤ Q.endOfRlcoBuf + 1 := by
      rw [hrest, hrlco', List.length_append, List.length_append] at hend
      push_cast at hend ⊢
      omega
    obtain ⟨hok, hpos, hlog⟩ := decodePlane_streams (q := Q.plane c) hvalid hcode hplane hlen coeffs
    have hdec : decodeComponent Q c s.rlco.length coeffs =
        decodePlane (Q.plane c) s.rlco.length coeffs (P.size c).2 (P.size c).1 false := by
      unfold decodeComponent
      rw [hsize c List.mem_cons_self, hraw c List.mem_cons_self]
    have hnext : (decodeComponent Q c s.rlco.length coeffs).rlco = (encodeComponent P s c).rlco.length := by
      rw [hdec, hpos, hrlco', List.length_append]
    obtain ⟨hok', hlog'⟩ := ih hnd.2 (s := encodeComponent P s c)
      (fun d hd => hsize d (List.mem_cons_of_mem _ hd)) (fun d hd => hcomp d (List.mem_cons_of_mem _ hd))
      (fun d hd => hraw d (List.mem_cons_of_mem _ hd)) hwords hend
      (decodeComponent Q c s.rlco.length coeffs).coeffs
    have hrefs : cs.flatMap (fun d => (planeStores P Q (encodeComponent P s c).ref d).map (Prod.mk d)) =
        cs.flatMap fun d => (planeStores P Q s.ref d).map (Prod.mk d) := by
      refine List.flatMap_congr fun d hd => ?_
      have hne : d ≠ c := fun heq => hnd.1 (heq ▸ hd)
      have hsame : (encodeComponent P s c).ref d = s.ref d := Function.update_of_ne hne _ _
      unfold planeStores
      rw [hsame]
    rw [decodeComponents]
    dsimp only
    rw [hnext, if_pos (by rw [hdec]; exact hok)]
    refine ⟨hok', ?_⟩
    dsimp only
    rw [hlog', hrefs, hdec, hlog]
    rfl

end Vicodec
end TbsMedia
