import Mathlib
import TbsMedia.DvbNet.UlePostCrc

/-!
# Termination of the extension header loop

The loop of `handle_ule_extensions` ends as long as the chain comes to no header that it cannot get
past: one whose type is not in the tables of handlers, one for which it would read outside the skb,
and a bridged header behind which the type of a bridged header stands.  The last kind is read again
and again.
-/

namespace TbsMedia
namespace Net

open Lib

variable {c : Chain} {hd hd' : Hdr} {p : DvbNetPriv} {ops : UleOps} {s : Ule} {dest : List UInt8}
  {total : ℤ}

/-- `handle_ule_extensions` has returned: with an error, or because the type is that of a
payload. -/
def ExtReturned (s : Ule) : Prop :=
  s.pc = .more ∨ ∃ dest, s.pc = .deliver dest ∧ ETH_P_802_3_MIN ≤ s.p.uleSnduType

/-- The chain of `s` comes to no header that the loop cannot get past. -/
def Chain.Passable (c : Chain) (hd : Hdr) : Prop := c.Within c.skb.size hd ∧ ¬ c.SelfLoop hd

theorem SelfLoop.next (ht : hd.type < 1536) (hl : c.SelfLoop hd) : c.Next hd hd := by
  have h1 : hd.type = 1 := (type_of_hlen ht hl.1.1).trans hl.1.2.1
  have hn := Chain.Next.bridged ht hl.1
  rw [hl.2] at hn
  rcases hd with ⟨off, type⟩
  obtain rfl : type = 1 := h1
  exact hn

/-- In front of a bridged header that announces a bridged header the loop stays for ever. -/
theorem never_returned_of_selfLoop (hpc : s.pc = .ext dest total) (h : At c hd s.p)
    (ht : hd.type < 1536) (hw : c.Within c.skb.size hd) (hl : c.SelfLoop hd) (n : ℕ) :
    ∃ total', (uleRun ops n s).pc = .ext dest total' ∧ At c hd (uleRun ops n s).p := by
  refine iterate_inv (I := fun t : Ule => ∃ total', t.pc = .ext dest total' ∧ At c hd t.p) ?_
    ⟨total, hpc, h⟩ n
  rintro t ⟨total', hpc', h'⟩
  rw [ext_next hpc' h' (SelfLoop.next ht hl) hw, if_pos ht]
  exact ⟨_, rfl, at_moved h' hd⟩

theorem not_returned_ext (hpc : s.pc = .ext dest total) : ¬ ExtReturned s := by
  rintro (hm | ⟨d, hd, -⟩)
  · rw [hpc] at hm
    cases hm
  · rw [hpc] at hd
    cases hd

/-- A header that is not passable is not passed. -/
theorem never_returned_of_not_passable (hpc : s.pc = .ext dest total) (h : At c hd s.p)
    (ht : hd.type < 1536) (hbad : ¬ c.Passable hd) (n : ℕ) : ¬ ExtReturned (uleRun ops n s) := by
  by_cases hw : c.Within c.skb.size hd
  · have hl : c.SelfLoop hd := by
      by_contra hl
      exact hbad ⟨hw, hl⟩
    obtain ⟨total', hpc', -⟩ := never_returned_of_selfLoop hpc h ht hw hl n
    exact not_returned_ext hpc'
  · refine iterate_of_tail (P := fun t : Ule => ¬ ExtReturned t) (not_returned_ext hpc) (fun k => ?_) n
    have hfault : (uleRun ops k (uleStep ops s)).pc = .fault := by
      refine iterate_inv (I := fun t : Ule => t.pc = .fault) (fun t hf => ?_) ?_ k
      · unfold uleStep
        rw [hf]
        exact hf
      · rw [ext_fault hpc h hw]
        rfl
    rintro (hm | ⟨d, hd, -⟩)
    · exact absurd (hfault.symm.trans hm) (by decide)
    · exact Pc.noConfusion (hfault.symm.trans hd)

/-- A chain is not got past a header that is not passable. -/
theorem never_returned_of_visits (hv : c.Visits hd hd') (ht : hd'.type < 1536)
    (hbad : ¬ c.Passable hd') : ∀ {s : Ule} {total : ℤ}, s.pc = .ext dest total → At c hd s.p →
      ∀ n, ¬ ExtReturned (uleRun ops n s) := by
  induction hv using Relation.ReflTransGen.head_induction_on with
  | refl =>
    intro s total hpc h n
    exact never_returned_of_not_passable hpc h ht hbad n
  | head hn hv ih =>
    rename_i a b
    intro s total hpc h n
    have hta : a.type < 1536 := type_lt_of_visits (Relation.ReflTransGen.head hn hv) ht
    by_cases hw : c.Within c.skb.size a
    · refine iterate_of_tail (P := fun t : Ule => ¬ ExtReturned t) (not_returned_ext hpc)
        (fun k => ?_) n
      rw [ext_next hpc h hn hw, if_pos (type_lt_of_visits hv ht)]
      exact ih rfl (at_moved h b) k
    · exact never_returned_of_not_passable hpc h hta (fun hp => hw hp.1) n

/-- How much of the skb is left, and whether the next round reads on the spot. -/
def loopMeasure (size : ℕ) (s : Ule) : ℕ :=
  2 * (size - s.p.uleNextHdr) + if s.p.uleSnduType = 1 then 1 else 0

/-- The step of a passable chain makes the measure smaller. -/
theorem measure_next (ht : hd.type < 1536) (hn : c.Next hd hd') (hp : c.Passable hd) :
    2 * (c.skb.size - hd'.off) + (if hd'.type = 1 then 1 else 0) <
      2 * (c.skb.size - hd.off) + if hd.type = 1 then 1 else 0 := by
  cases hn with
  | optional _ hlen _ =>
    have hfit := (touched_optional hlen _).mp hp.1.2
    dsimp only
    split_ifs <;> omega
  | bridged _ hb =>
    have h1 : hd.type = 1 := (type_of_hlen ht hb.1).trans hb.2.1
    have h2 : c.word (c.innerType hd) ≠ 1 := fun hw => hp.2 ⟨hb, hw⟩
    rw [if_neg h2, if_pos h1]
    exact Nat.lt_succ_self _

/-- The loop is at a header of the chain that starts with `hd₀`. -/
def OnChain (c : Chain) (hd₀ : Hdr) (s : Ule) : Prop :=
  ∃ dest total hd, s.pc = .ext dest total ∧ At c hd s.p ∧ c.Visits hd₀ hd ∧ hd.type < 1536

/-- A round at a passable header returns, or comes to another header and makes the measure
smaller. -/
theorem onChain_step {hd₀ : Hdr} (hgood : ∀ hd, c.Visits hd₀ hd → hd.type < 1536 → c.Passable hd)
    (hs : OnChain c hd₀ s) :
    ExtReturned (uleStep ops s) ∨ OnChain c hd₀ (uleStep ops s) ∧
      loopMeasure c.skb.size (uleStep ops s) < loopMeasure c.skb.size s := by
  obtain ⟨dest, total, hd, hpc, h, hv, ht⟩ := hs
  have hp := hgood hd hv ht
  by_cases hn : ∃ hd', c.Next hd hd'
  · obtain ⟨hd', hn⟩ := hn
    by_cases ht' : hd'.type < 1536
    · right
      rw [ext_next hpc h hn hp.1, if_pos ht']
      refine ⟨⟨dest, _, hd', rfl, at_moved h hd', hv.tail hn, ht'⟩, ?_⟩
      have hlt := measure_next ht hn hp
      unfold loopMeasure
      rw [h.off, h.type]
      exact hlt
    · left
      rw [ext_next hpc h hn hp.1, if_neg ht']
      refine Or.inr ⟨dest, rfl, ?_⟩
      change ETH_P_802_3_MIN ≤ (pull (c.moved s.p hd hd') _).uleSnduType
      rw [pull, (at_moved h hd').skb]
      exact Nat.not_lt.mp ht'
  · left
    rw [ext_stop hpc h ht (fun hd' hn' => hn ⟨hd', hn'⟩) hp.1]
    exact Or.inl rfl

/-- **The loop gets to the end of a passable chain.** -/
theorem returned_of_passable {hd₀ : Hdr}
    (hgood : ∀ hd, c.Visits hd₀ hd → hd.type < 1536 → c.Passable hd) (hs : OnChain c hd₀ s) :
    ∃ n, ExtReturned (uleRun ops n s) := by
  obtain ⟨t, ⟨n, hn⟩, hret⟩ := exists_leads_of_measure (OnChain c hd₀)
    (fun t => ExtReturned (uleStep ops t)) (loopMeasure c.skb.size)
    (fun t ht => onChain_step hgood ht) hs
  refine ⟨n + 1, ?_⟩
  rw [uleRun, Function.iterate_succ_apply', hn]
  exact hret

/-- The chain of extension headers of the SNDU that `s` is about to hand up. -/
def Ule.chain (s : Ule) (skb : SkBuff) : Chain := ⟨skb, s.p.uleSnduLen, s.p.uleDbit⟩

/-- **The loop over the extension headers returns exactly if the chain is passable**: if the headers
it comes to have handlers in the tables, end within the skb, and are not bridged ones that announce
another bridged one. -/
theorem extension_loop_returns_iff (ops : UleOps) (s : Ule) (dest : List UInt8) (skb : SkBuff)
    (hskb : s.p.uleSkb = some skb) (ht : s.p.uleSnduType < ETH_P_802_3_MIN) :
    (∃ n, ExtReturned (uleRun ops n (dvbNetUleHeaders s dest))) ↔
      ∀ hd, (s.chain skb).Visits ⟨skb.data, s.p.uleSnduType⟩ hd → hd.type < ETH_P_802_3_MIN →
        (s.chain skb).Passable hd := by
  have hpc : (dvbNetUleHeaders s dest).pc = .ext dest 0 := by
    rw [dvbNetUleHeaders, if_pos ht]
  have hat : At (s.chain skb) ⟨skb.data, s.p.uleSnduType⟩ (dvbNetUleHeaders s dest).p := by
    rw [dvbNetUleHeaders, if_pos ht, hskb]
    exact ⟨hskb, rfl, rfl, rfl, rfl⟩
  constructor
  · rintro ⟨n, hret⟩ hd hv hlt
    by_contra hbad
    exact never_returned_of_visits hv hlt hbad hpc hat n hret
  · intro hgood
    exact returned_of_passable hgood
      ⟨dest, 0, _, hpc, hat, Relation.ReflTransGen.refl, ht⟩

theorem extension_loop_returns_padding :
    ∃ n, ExtReturned (uleRun plainOps n (dvbNetUleHeaders
      (arrived plainOps .RX_MODE_UNI paddedSndu) [])) := by
  refine (extension_loop_returns_iff plainOps (arrived plainOps .RX_MODE_UNI paddedSndu) []
    (arrivedSkb plainOps paddedSndu) rfl (by decide)).mpr ?_
  intro hd hv ht
  rcases Relation.ReflTransGen.cases_head hv with rfl | ⟨b, hn, hb⟩
  · exact ⟨by decide +kernel, by decide +kernel⟩
  · have hlt := type_lt_of_visits hb ht
    cases hn with
    | optional => exact absurd hlt (by decide +kernel)
    | bridged _ hbr => exact absurd hbr.1 (by decide +kernel)

/-- A bridged SNDU with a destination address whose inner frame has `00 01` at the place where the
type behind the bridged header is looked for. -/
def bridgedTwice : Sndu where
  dest := some [2, 0, 0, 0, 0, 1]
  type := 1
  payload := [2, 0, 0, 0, 0, 1] ++ [2, 0, 0, 0, 0, 2] ++ [8, 0] ++ [0x45, 0, 0, 20, 0, 1]
  length_dest := by
    rintro _ ⟨⟩
    rfl
  type_lt := bridged_type_lt
  payload_pos := by decide
  length_le := by decide

/-- The decapsulator is called with a cell that contains `bridgedTwice`. -/
def bridgedTwiceStart : Ule :=
  (Ule.init .RX_MODE_UNI []).callCells
    [uleCell true 0 (0 :: bridgedTwice.bytes plainOps) (by decide +kernel)]

/-- The SNDU passes its CRC check, and the loop never returns. -/
theorem extension_loop_hangs :
    (uleRun plainOps 9 bridgedTwiceStart).pc = .ext [2, 0, 0, 0, 0, 1] 0 ∧
      ∀ n, ¬ ExtReturned (uleRun plainOps n (uleRun plainOps 9 bridgedTwiceStart)) := by
  have hpc : (uleRun plainOps 9 bridgedTwiceStart).pc = .ext [2, 0, 0, 0, 0, 1] 0 := by
    decide +kernel
  have hsome : (uleRun plainOps 9 bridgedTwiceStart).p.uleSkb.isSome := by decide +kernel
  obtain ⟨skb, hskb⟩ := Option.isSome_iff_exists.mp hsome
  have hloop : ∀ skb ∈ (uleRun plainOps 9 bridgedTwiceStart).p.uleSkb,
      ((uleRun plainOps 9 bridgedTwiceStart).chain skb).Within skb.size ⟨26, 1⟩ ∧
        ((uleRun plainOps 9 bridgedTwiceStart).chain skb).SelfLoop ⟨26, 1⟩ := by
    decide +kernel
  obtain ⟨hw, hl⟩ := hloop skb hskb
  have hoff : (uleRun plainOps 9 bridgedTwiceStart).p.uleNextHdr = 26 := by decide +kernel
  have htype : (uleRun plainOps 9 bridgedTwiceStart).p.uleSnduType = 1 := by decide +kernel
  generalize uleRun plainOps 9 bridgedTwiceStart = s at hpc hskb hw hl hoff htype ⊢
  refine ⟨hpc, fun n => ?_⟩
  have hat : At (s.chain skb) ⟨26, 1⟩ s.p := ⟨hskb, rfl, rfl, hoff, htype⟩
  obtain ⟨total, hn, -⟩ := never_returned_of_selfLoop hpc hat (by decide) hw hl n
  exact not_returned_ext hn

end Net
end TbsMedia
