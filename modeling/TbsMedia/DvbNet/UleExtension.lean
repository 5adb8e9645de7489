import TbsMedia.DvbNet.Ule
import TbsMedia.Lib.Machine
import Mathlib.Logic.Relation

/-!
# Chains of extension headers

The bytes of an SNDU and its type field spell a chain of extension headers.  A `Hdr` is an offset in
the skb and a type; `Chain.Next` is the step from one header to the next.  This is read off the
bytes alone; `handleOne_within` says that the loop of `handle_ule_extensions` follows it, one header
a round.
-/

namespace TbsMedia
namespace Net

open Lib

/-! ## The chain -/

/-- What a chain of extension headers is made of. -/
structure Chain where
  skb : SkBuff
  sndLen : ℕ
  dbit : UInt8

/-- A header: where `ule_next_hdr` points, and the type that has announced it. -/
structure Hdr where
  off : ℕ
  type : ℕ

/-- Half the length of an optional header; zero for a mandatory one. -/
def Hdr.hlen (hd : Hdr) : ℕ := hd.type / 256 % 8

/-- The index into the table of handlers. -/
def Hdr.htype (hd : Hdr) : ℕ := hd.type % 256

variable (c : Chain)

/-- The word at an address of the skb. -/
def Chain.word (a : ℕ) : ℕ := be16 (c.skb.mem a) (c.skb.mem (a + 1))

/-- A bridged header whose inner frame has a type, or the length that it says. -/
def Chain.Bridges (hd : Hdr) : Prop :=
  hd.hlen = 0 ∧ hd.htype = 1 ∧
    (c.word (hd.off + 12) < 1536 →
      (c.sndLen : ℤ) - ((hd.off + 14 : ℕ) - c.skb.data) = c.word (hd.off + 12))

instance (hd : Hdr) : Decidable (c.Bridges hd) := by
  unfold Chain.Bridges
  infer_instance

/-- Where the type behind a bridged header is read. -/
def Chain.innerType (hd : Hdr) : ℕ := hd.off + if c.dbit ≠ 0 then 12 else 18

/-- The steps of the chain. -/
inductive Chain.Next : Hdr → Hdr → Prop where
  | optional {hd : Hdr} : hd.type < 1536 → hd.hlen ≠ 0 → hd.htype ≠ 255 →
      Chain.Next hd ⟨hd.off + 2 * hd.hlen, c.word (hd.off + 2 * hd.hlen - 2)⟩
  | bridged {hd : Hdr} : hd.type < 1536 → c.Bridges hd →
      Chain.Next hd ⟨hd.off, c.word (c.innerType hd)⟩

/-- The chain that starts with `hd` comes to `hd'`. -/
def Chain.Visits : Hdr → Hdr → Prop := Relation.ReflTransGen c.Next

/-- The addresses that are read for a header. -/
def Chain.touched (hd : Hdr) : List ℕ :=
  if hd.hlen ≠ 0 then [hd.off + 2 * hd.hlen - 2, hd.off + 2 * hd.hlen - 1]
  else if hd.htype = 1 then
    [hd.off + 12, hd.off + 13] ++ if c.Bridges hd then [c.innerType hd, c.innerType hd + 1] else []
  else []

/-- The header is not beyond the tables of handlers, and what is read for it lies below `limit`. -/
def Chain.Within (limit : ℕ) (hd : Hdr) : Prop :=
  hd.htype ≠ 255 ∧ ∀ a ∈ c.touched hd, a < limit

instance (limit : ℕ) (hd : Hdr) : Decidable (c.Within limit hd) :=
  inferInstanceAs (Decidable (_ ∧ _))

/-- The header is a bridged one, and so is the type behind it. -/
def Chain.SelfLoop (hd : Hdr) : Prop := c.Bridges hd ∧ c.word (c.innerType hd) = 1

instance (hd : Hdr) : Decidable (c.SelfLoop hd) := inferInstanceAs (Decidable (_ ∧ _))

/-! ## One round of the loop -/

/-- The loop is at the header `hd` of the chain `c`. -/
structure At (hd : Hdr) (p : DvbNetPriv) : Prop where
  skb : p.uleSkb = some c.skb
  sndLen : p.uleSnduLen = c.sndLen
  dbit : p.uleDbit = c.dbit
  off : p.uleNextHdr = hd.off
  type : p.uleSnduType = hd.type

theorem hlen_eq (t : ℕ) : (t &&& 0x0700) >>> 8 = t / 256 % 8 := by
  rw [Nat.shiftRight_and_distrib, Nat.shiftRight_eq_div_pow]
  exact Nat.and_two_pow_sub_one_eq_mod _ 3

theorem htype_eq (t : ℕ) : t &&& 0x00ff = t % 256 := Nat.and_two_pow_sub_one_eq_mod t 8

/-- What the round at `hd` leaves behind, on its way to `hd'`. -/
def Chain.moved (p : DvbNetPriv) (hd hd' : Hdr) : DvbNetPriv :=
  { p with
    uleNextHdr := hd'.off
    uleSnduType := hd'.type
    uleBridged := p.uleBridged || decide (hd.hlen = 0)
    reads := p.reads ++ (c.touched hd).map fun a => (a, c.skb.tail) }

theorem loadBe16_eq {p : DvbNetPriv} (skb : SkBuff) (a : ℕ) (h : p.uleSkb = some skb) :
    loadBe16 p a =
      if a + 2 ≤ skb.size then
        some (be16 (skb.mem a) (skb.mem (a + 1)),
          { p with reads := p.reads ++ [(a, skb.tail), (a + 1, skb.tail)] })
      else none := by
  unfold loadBe16 touch
  rw [h]
  dsimp only
  split_ifs <;> rfl

variable {c} {hd hd' : Hdr} {p : DvbNetPriv}

theorem type_of_hlen (h : hd.type < 1536) (hlen : hd.hlen = 0) : hd.type = hd.htype := by
  unfold Hdr.hlen at hlen
  unfold Hdr.htype
  omega

/-- An optional header is skipped. -/
theorem handleOptional_eq (h : At c hd p) (hlen : hd.hlen ≠ 0) :
    handleOptionalExtension hd.hlen hd.htype p =
      if hd.off + 2 * hd.hlen ≤ c.skb.size then
        some (((2 * hd.hlen : ℕ) : ℤ),
          c.moved p hd ⟨hd.off + 2 * hd.hlen, c.word (hd.off + 2 * hd.hlen - 2)⟩)
      else none := by
  have hpad : processOptional hd.htype p = some (0, p) := by
    unfold processOptional uleOptionalExtHandlers
    rcases hd.htype with _ | n <;> rfl
  have hlen1 : hd.hlen <<< 1 = 2 * hd.hlen := by
    rw [Nat.shiftLeft_eq]
    omega
  have hload := loadBe16_eq (p := { p with uleNextHdr := p.uleNextHdr + 2 * hd.hlen }) c.skb
    (p.uleNextHdr + 2 * hd.hlen - 2) h.skb
  have h1 : hd.off + 2 * hd.hlen - 2 + 1 = hd.off + 2 * hd.hlen - 1 := by omega
  have h2 : hd.off + 2 * hd.hlen - 2 + 2 = hd.off + 2 * hd.hlen := by omega
  rw [handleOptionalExtension, hpad]
  dsimp only [Option.bind_eq_bind, Option.bind_some]
  rw [hlen1, hload, h.off, h2]
  by_cases hfit : hd.off + 2 * hd.hlen ≤ c.skb.size
  · rw [if_pos hfit, if_pos hfit]
    simp [Chain.moved, Chain.touched, Chain.word, hlen, h1]
  · rw [if_neg hfit, if_neg hfit]
    rfl

/-- The test of a bridged header. -/
theorem uleBridgedSndu_eq (h : At c hd p) (hlen : hd.hlen = 0) (h1 : hd.htype = 1) :
    uleBridgedSndu p =
      if hd.off + 14 ≤ c.skb.size then
        some (if c.Bridges hd then 0 else -1,
          { p with
            uleBridged := p.uleBridged || decide (c.Bridges hd)
            reads := p.reads ++ [(hd.off + 12, c.skb.tail), (hd.off + 13, c.skb.tail)] })
      else none := by
  have hload := loadBe16_eq c.skb (p.uleNextHdr + 2 * ETH_ALEN) h.skb
  have hbr : c.Bridges hd ↔ ¬ (c.word (hd.off + 12) < ETH_P_802_3_MIN ∧
      (p.uleSnduLen : ℤ) - ((p.uleNextHdr + ETH_HLEN : ℕ) - c.skb.data)
        ≠ c.word (hd.off + 12)) := by
    rw [h.sndLen, h.off, Chain.Bridges, not_and, not_not]
    exact ⟨fun hb => hb.2.2, fun hb => ⟨hlen, h1, hb⟩⟩
  rw [uleBridgedSndu, hload, h.off]
  by_cases hfit : hd.off + 14 ≤ c.skb.size
  · rw [if_pos hfit, if_pos (show hd.off + 2 * ETH_ALEN + 2 ≤ c.skb.size from hfit)]
    dsimp only [Option.bind_eq_bind, Option.bind_some]
    rw [h.skb]
    dsimp only [Option.bind_some]
    by_cases hb : c.Bridges hd
    · rw [if_neg, if_pos hb, decide_eq_true hb, Bool.or_true]
      · rfl
      · rw [← h.off] at hbr ⊢
        exact hbr.mp hb
    · rw [if_pos, if_neg hb, decide_eq_false hb, Bool.or_false]
      · rfl
      · rw [← h.off] at hbr ⊢
        exact not_not.mp fun hn => hb (hbr.mpr hn)
  · rw [if_neg hfit, if_neg (show ¬ hd.off + 2 * ETH_ALEN + 2 ≤ c.skb.size from hfit)]
    rfl

theorem mandatory_one : uleMandatoryExtHandlers 1 = some uleBridgedSndu := rfl

/-- Behind a bridged header the type of the inner frame is looked for. -/
theorem handleMandatory_bridged (h : At c hd p) (hb : c.Bridges hd)
    (hfit : hd.off + 14 ≤ c.skb.size) :
    handleMandatoryExtension hd.htype p =
      if c.innerType hd + 2 ≤ c.skb.size then
        some (0, c.moved p hd ⟨hd.off, c.word (c.innerType hd)⟩)
      else none := by
  have hinner : p.uleNextHdr + (0 : ℤ).toNat + (if p.uleDbit ≠ 0 then 2 else 3) * ETH_ALEN =
      c.innerType hd := by
    rw [h.off, h.dbit, Chain.innerType]
    split_ifs <;> rfl
  rw [handleMandatoryExtension, hb.2.1, mandatory_one]
  dsimp only
  rw [uleBridgedSndu_eq h hb.1 hb.2.1, if_pos hfit, if_pos hb, decide_eq_true hb, Bool.or_true]
  dsimp only [Option.bind_eq_bind, Option.bind_some]
  rw [if_pos (Int.le_refl 0), if_neg (by simp), hinner, loadBe16_eq c.skb _ (by exact h.skb)]
  by_cases hin : c.innerType hd + 2 ≤ c.skb.size
  · rw [if_pos hin, if_pos hin]
    simp [Chain.moved, Chain.touched, Chain.word, hb, hb.1, hb.2.1, h.off]
  · rw [if_neg hin, if_neg hin]
    rfl

/-! ## The three outcomes of a round -/

theorem htype_lt (hd : Hdr) : hd.htype < 256 := Nat.mod_lt _ (by decide)

theorem handleOne_eq (h : At c hd p) :
    handleOneUleExtension p =
      if hd.htype = 255 then none
      else if hd.hlen = 0 then handleMandatoryExtension hd.htype p
      else handleOptionalExtension hd.hlen hd.htype p := by
  have hlt := htype_lt hd
  unfold handleOneUleExtension
  dsimp only
  rw [hlen_eq, htype_eq, h.type]
  change (if hd.htype ≥ 255 then _ else if hd.hlen = 0 then _ else _) = _
  by_cases h255 : hd.htype = 255
  · rw [if_pos (by omega), if_pos h255]
  · rw [if_neg (by omega), if_neg h255]
    rfl

theorem touched_optional (hlen : hd.hlen ≠ 0) (limit : ℕ) :
    (∀ a ∈ c.touched hd, a < limit) ↔ hd.off + 2 * hd.hlen ≤ limit := by
  rw [Chain.touched, if_pos hlen]
  simp only [List.mem_cons, List.not_mem_nil, or_false, forall_eq_or_imp, forall_eq]
  omega

theorem touched_bridged (hlen : hd.hlen = 0) (h1 : hd.htype = 1) (limit : ℕ) :
    (∀ a ∈ c.touched hd, a < limit) ↔
      hd.off + 14 ≤ limit ∧ (c.Bridges hd → c.innerType hd + 2 ≤ limit) := by
  rw [Chain.touched, if_neg (not_not.mpr hlen), if_pos h1]
  by_cases hb : c.Bridges hd <;>
    simp only [hb, if_true, if_false, List.cons_append, List.nil_append, List.mem_cons,
      List.not_mem_nil, or_false, forall_eq_or_imp, forall_eq, true_imp_iff, false_imp_iff,
      and_true] <;>
    omega

/-- **A round follows the chain**, where what it reads is there. -/
theorem handleOne_next (h : At c hd p) (hn : c.Next hd hd') (hw : c.Within c.skb.size hd) :
    handleOneUleExtension p = some ((hd'.off : ℤ) - hd.off, c.moved p hd hd') := by
  rw [handleOne_eq h, if_neg hw.1]
  cases hn with
  | optional _ hlen _ =>
    have hl : ((2 * hd.hlen : ℕ) : ℤ) = ((hd.off + 2 * hd.hlen : ℕ) : ℤ) - hd.off := by omega
    rw [if_neg hlen, handleOptional_eq h hlen, if_pos ((touched_optional hlen _).mp hw.2), hl]
  | bridged _ hb =>
    obtain ⟨hfit, hin⟩ := (touched_bridged hb.1 hb.2.1 _).mp hw.2
    rw [if_pos hb.1, handleMandatory_bridged h hb hfit, if_pos (hin hb)]
    simp

/-- **A round discards the SNDU** where the chain ends with a type that is none. -/
theorem handleOne_stop (h : At c hd p) (ht : hd.type < 1536) (hn : ∀ hd', ¬ c.Next hd hd')
    (hw : c.Within c.skb.size hd) :
    handleOneUleExtension p =
      some (-1, { p with reads := p.reads ++ (c.touched hd).map fun a => (a, c.skb.tail) }) := by
  have hlen : hd.hlen = 0 := by
    by_contra hlen
    exact hn _ (Chain.Next.optional ht hlen hw.1)
  have hnb : ¬ c.Bridges hd := fun hb => hn _ (Chain.Next.bridged ht hb)
  rw [handleOne_eq h, if_neg hw.1, if_pos hlen, handleMandatoryExtension, Chain.touched,
    if_neg (not_not.mpr hlen)]
  by_cases h1 : hd.htype = 1
  · have hfit := ((touched_bridged hlen h1 _).mp hw.2).1
    rw [if_pos h1, if_neg hnb, h1, mandatory_one]
    dsimp only
    rw [uleBridgedSndu_eq h hlen h1, if_pos hfit, if_neg hnb, decide_eq_false hnb, Bool.or_false]
    rfl
  · rw [if_neg h1, List.map_nil, List.append_nil]
    rcases hk : hd.htype with _ | _ | k
    · rfl
    · exact absurd hk h1
    · rfl

/-- A round reads outside the skb, or calls what is no handler. -/
theorem handleOne_fault (h : At c hd p) (hw : ¬ c.Within c.skb.size hd) :
    handleOneUleExtension p = none := by
  rw [handleOne_eq h]
  by_cases h255 : hd.htype = 255
  · rw [if_pos h255]
  rw [if_neg h255]
  have hout : ¬ ∀ a ∈ c.touched hd, a < c.skb.size := fun ha => hw ⟨h255, ha⟩
  by_cases hlen : hd.hlen = 0
  · rw [if_pos hlen]
    have h1 : hd.htype = 1 := by
      by_contra h1
      rw [Chain.touched, if_neg (not_not.mpr hlen), if_neg h1] at hout
      exact hout fun a ha => absurd ha (List.not_mem_nil)
    rw [touched_bridged hlen h1] at hout
    by_cases hfit : hd.off + 14 ≤ c.skb.size
    · have hb : c.Bridges hd := by
        by_contra hb
        exact hout ⟨hfit, fun hb' => absurd hb' hb⟩
      rw [handleMandatory_bridged h hb hfit, if_neg fun hin => hout ⟨hfit, fun _ => hin⟩]
    · rw [h1, handleMandatoryExtension, mandatory_one]
      dsimp only
      rw [uleBridgedSndu_eq h hlen h1, if_neg hfit]
      rfl
  · rw [if_neg hlen, handleOptional_eq h hlen,
      if_neg fun hin => hout ((touched_optional hlen _).mpr hin)]

/-! ## The rounds of the machine -/

variable {ops : UleOps} {s : Ule} {dest : List UInt8} {total : ℤ}

theorem Chain.Next.off_le (hn : c.Next hd hd') : hd.off ≤ hd'.off := by
  cases hn with
  | optional => exact Nat.le_add_right _ _
  | bridged => exact Nat.le_refl _

theorem Chain.Next.type_lt (hn : c.Next hd hd') : hd.type < 1536 := by
  cases hn with
  | optional ht _ _ => exact ht
  | bridged ht _ => exact ht

/-- A chain that goes on has not come to a payload. -/
theorem type_lt_of_visits (hv : c.Visits hd hd') (ht : hd'.type < 1536) : hd.type < 1536 := by
  rcases Relation.ReflTransGen.cases_head hv with rfl | ⟨b, hn, -⟩
  · exact ht
  · exact hn.type_lt

theorem at_moved (h : At c hd p) (hd' : Hdr) : At c hd' (c.moved p hd hd') :=
  ⟨h.skb, h.sndLen, h.dbit, rfl, rfl⟩

theorem ext_next (hpc : s.pc = .ext dest total) (h : At c hd s.p) (hn : c.Next hd hd')
    (hw : c.Within c.skb.size hd) :
    uleStep ops s =
      if hd'.type < 1536 then
        { s with p := c.moved s.p hd hd', pc := .ext dest (total + ((hd'.off : ℤ) - hd.off)) }
      else
        { s with
          p := pull (c.moved s.p hd hd') (total + ((hd'.off : ℤ) - hd.off)).toNat
          pc := .deliver dest } := by
  have hle := hn.off_le
  unfold uleStep
  rw [hpc]
  dsimp only
  rw [handleUleExtensions, handleOne_next h hn hw]
  dsimp only
  rw [if_neg (show ¬ (hd'.off : ℤ) - hd.off < 0 by omega)]
  rfl

theorem ext_stop (hpc : s.pc = .ext dest total) (h : At c hd s.p) (ht : hd.type < 1536)
    (hn : ∀ hd', ¬ c.Next hd hd') (hw : c.Within c.skb.size hd) :
    uleStep ops s =
      Ule.finish { s with
        p.reads := s.p.reads ++ (c.touched hd).map fun a => (a, c.skb.tail) } := by
  unfold uleStep
  rw [hpc]
  dsimp only
  rw [handleUleExtensions, handleOne_stop h ht hn hw]
  rfl

theorem ext_fault (hpc : s.pc = .ext dest total) (h : At c hd s.p)
    (hw : ¬ c.Within c.skb.size hd) : uleStep ops s = s.goto .fault := by
  unfold uleStep
  rw [hpc]
  dsimp only
  rw [handleUleExtensions, handleOne_fault h hw]

end Net
end TbsMedia
