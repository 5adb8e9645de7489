import Mathlib
import TbsMedia.Allegro.NalH264
import TbsMedia.Allegro.Walks

/-!
# Reading what was written

A walk with the writing primitives puts down the bits of the fields on its way, and the same walk with the reading
primitives finds them.  It goes the same way, because every field that is tested was read before; and what it reads is
what was written, but for signed fields above zero: they come back one too high.

* `Walk.encode`, `Walk.coded`: the bits and the fields on the way.
* `Walk.Scoped`: a field is tested only behind where it is coded.
* `run_write`, `run_read`: the two directions.
* `sevBack_eq_iff`: which signed values come back.
* `parameterSets_roundTrip_iff`: when the round trip is one.
-/

namespace TbsMedia
namespace Allegro

open Lib (msbBits length_msbBits)

variable {F : Type}

/-! ## Exp-Golomb codes -/

/-- The bits of an unsigned Exp-Golomb code. -/
def uevBits (value : Word) : List Bool :=
  List.replicate (Nat.log2 (value + 1).toNat) false ++
    msbBits (value + 1).toNat (Nat.log2 (value + 1).toNat + 1)

/-- The code number of a signed value, as `rbsp_write_sev` takes it. -/
def sevCode (value : Word) : Word := if 0 < value.toInt then (2 * value) ||| 1 else -(2 * value)

/-- What becomes of a signed value. -/
def sevBack (value : Word) : Word := sevOfUev (sevCode value)

theorem log2_succ_lt (value : Word) : Nat.log2 (value + 1).toNat < 32 := by
  by_cases h : (value + 1).toNat = 0
  · rw [h]
    decide
  · exact (Nat.log2_lt h).mpr (value + 1).isLt

theorem length_uevBits (value : Word) : (uevBits value).length ≤ 63 := by
  unfold uevBits
  rw [List.length_append, List.length_replicate, length_msbBits]
  have := log2_succ_lt value
  omega

theorem rbspWriteUev_writes {r r' : Rbsp} {value : Word} (h : rbspWriteUev r value = (r', 0))
    (hf : r.Fits (uevBits value).length) : value + 1 ≠ 0 ∧ Writes r (uevBits value) r' := by
  unfold rbspWriteUev at h
  by_cases hv : value + 1 = 0
  · rw [if_pos hv] at h
    exact absurd (congrArg Prod.snd h) (show ¬-EINVAL = 0 by decide)
  · rw [if_neg hv] at h
    unfold uevBits at hf ⊢
    generalize Nat.log2 (value + 1).toNat = n at h hf ⊢
    rw [List.length_append, List.length_replicate, length_msbBits] at hf
    dsimp only at h
    rcases hw : rbspWriteBits r n 0 with ⟨s, e⟩
    rw [hw] at h
    by_cases he : e = 0
    · subst he
      obtain ⟨-, hs⟩ := rbspWriteBits_writes hw (hf.of_le (by omega))
      rw [msbBits_zero] at hs
      have hf' : r.Fits ((List.replicate n false).length + (n + 1)) := by rwa [List.length_replicate]
      obtain ⟨-, ht⟩ := rbspWriteBits_writes h (hf'.after hs)
      exact ⟨hv, hs.trans ht⟩
    · rw [if_pos he] at h
      exact absurd (congrArg Prod.snd h) he

/-- The highest bit of a number is a one. -/
theorem msbBits_log2 {n : ℕ} (h : n ≠ 0) : msbBits n (Nat.log2 n + 1) = true :: msbBits n (Nat.log2 n) := by
  show n.testBit n.log2 :: msbBits n n.log2 = _
  rw [Nat.testBit_log2 h]

theorem readLeadingZeroBits_eq {r : Rbsp} {m fuel : ℕ} {c c' : Cursor} {rest : List Bool} (n : ℕ)
    (h : Walks (bitAt r.data) c (List.replicate m false ++ true :: rest) c') (hfuel : m < fuel)
    (hin : c'.pos ≤ 8 * r.size) (hlim : c'.pos < POS_LIMIT) :
    ∃ d, readLeadingZeroBits fuel n (r.at c) = some (r.at d, .ok (n + m)) ∧ Walks (bitAt r.data) d rest c' := by
  induction m generalizing c n fuel with
  | zero =>
    obtain ⟨fuel, rfl⟩ : ∃ f, fuel = f + 1 := ⟨fuel - 1, by omega⟩
    refine ⟨c.next.put true, ?_, h.2.2⟩
    unfold readLeadingZeroBits
    rw [rbspReadBit_eq h hin hlim]
    rfl
  | succ m ih =>
    obtain ⟨fuel, rfl⟩ : ∃ f, fuel = f + 1 := ⟨fuel - 1, by omega⟩
    rw [List.replicate_succ, List.cons_append] at h
    obtain ⟨d, hd, hrest⟩ := ih (n + 1) h.2.2 (show m < fuel by omega)
    refine ⟨d, ?_, hrest⟩
    unfold readLeadingZeroBits
    rw [rbspReadBit_eq h hin hlim]
    dsimp only
    rw [hd, show n + 1 + m = n + (m + 1) by omega]

/-- A number from its bits below the highest one. -/
theorem uev_value {value : Word} {n : ℕ} (h : value + 1 ≠ 0) (hn : n = Nat.log2 (value + 1).toNat) :
    ((1 : Word) <<< n) - 1 + BitVec.ofNat 32 ((value + 1).toNat % 2 ^ n) = value := by
  have hne : (value + 1).toNat ≠ 0 := fun h' => h (BitVec.eq_of_toNat_eq h')
  have hlow := Nat.log2_self_le hne
  have hhigh := Nat.lt_log2_self (n := (value + 1).toNat)
  have hlt := log2_succ_lt value
  rw [← hn] at hlow hhigh hlt
  rw [pow_succ] at hhigh
  have hmod : (value + 1).toNat = 2 ^ n + (value + 1).toNat % 2 ^ n := by
    have hdiv : (value + 1).toNat / 2 ^ n = 1 := by
      rw [Nat.div_eq_iff (Nat.two_pow_pos _)]
      omega
    have := Nat.div_add_mod (value + 1).toNat (2 ^ n)
    rw [hdiv, Nat.mul_one] at this
    exact this.symm
  have hone : ((1 : Word) <<< n) = BitVec.ofNat 32 (2 ^ n) := by
    refine BitVec.eq_of_toNat_eq ?_
    simp [BitVec.toNat_shiftLeft, Nat.shiftLeft_eq]
  have hsum : ((1 : Word) <<< n) + BitVec.ofNat 32 ((value + 1).toNat % 2 ^ n) = value + 1 := by
    rw [hone, ← BitVec.ofNat_add, ← hmod, BitVec.ofNat_toNat, BitVec.setWidth_eq]
  rw [BitVec.sub_add_comm, hsum]
  exact BitVec.add_sub_cancel value 1

/-- **An unsigned value is read.** -/
theorem rbspReadUev_eq {r : Rbsp} {c c' : Cursor} {value : Word} (hv : value + 1 ≠ 0)
    (h : Walks (bitAt r.data) c (uevBits value) c') (hin : c'.pos ≤ 8 * r.size) (hlim : c'.pos < POS_LIMIT) :
    rbspReadUev (r.at c) = some (r.at c', .ok value) := by
  have hne : (value + 1).toNat ≠ 0 := fun h' => hv (BitVec.eq_of_toNat_eq h')
  have hvalue := uev_value hv rfl
  have hlt := log2_succ_lt value
  unfold uevBits at h
  rw [msbBits_log2 hne] at h
  generalize Nat.log2 (value + 1).toNat = n at h hvalue hlt
  obtain ⟨d, hd, hrest⟩ := readLeadingZeroBits_eq 0 h (show n < READ_FUEL from hlt.trans (by decide)) hin hlim
  have hint : (BitVec.ofNat 32 n).toInt = n := by
    have hnat : (BitVec.ofNat 32 n).toNat = n := by
      rw [BitVec.toNat_ofNat]
      exact Nat.mod_eq_of_lt (by omega)
    rw [BitVec.toInt_eq_toNat_of_lt (by omega), hnat]
  unfold rbspReadUev
  rw [hd, Nat.zero_add]
  dsimp only
  rw [hint, Int.toNat_natCast]
  rcases Nat.eq_zero_or_pos n with rfl | hpos
  · obtain rfl := hrest
    rw [if_neg (by decide)]
    rw [pow_zero, Nat.mod_one] at hvalue
    rw [← hvalue]
    rfl
  · rw [if_pos (by omega), rbspReadBits_eq (by omega) hrest hin hlim]
    dsimp only
    rw [hvalue]

/-- `rbsp_read_sev` takes the lowest bit of the code number for the sign. -/
theorem sevOfUev_toNat (tmp : Word) :
    sevOfUev tmp = if tmp.toNat % 2 = 1 then (tmp + 1) / 2 else -(tmp / 2) := by
  have hbit : tmp &&& 1 ≠ 0 ↔ tmp.toNat % 2 = 1 := by
    rw [Ne, ← BitVec.toNat_inj, BitVec.toNat_and]
    show ¬tmp.toNat &&& 1 = 0 ↔ _
    rw [Nat.and_one_is_mod]
    omega
  unfold sevOfUev
  by_cases h : tmp.toNat % 2 = 1
  · rw [if_pos h, if_pos (hbit.mpr h)]
  · rw [if_neg h, if_neg (mt hbit.mp h)]

/-- The values that a signed Exp-Golomb code can have. -/
def SevRange (value : Word) : Prop := -(2 ^ 30 - 1) ≤ value.toInt ∧ value.toInt ≤ 2 ^ 30 - 1

theorem sevCode_of_pos {value : Word} (h : SevRange value) (hpos : 0 < value.toInt) :
    (sevCode value).toNat = 2 * value.toNat + 1 ∧ value.toNat < 2 ^ 30 := by
  obtain ⟨-, hhigh⟩ := h
  have hlt := value.isLt
  rw [BitVec.toInt_eq_toNat_cond] at hpos hhigh
  have hn : value.toNat < 2 ^ 30 := by
    split at hhigh <;> split at hpos <;> omega
  unfold sevCode
  rw [if_pos (by rw [BitVec.toInt_eq_toNat_cond]; exact hpos), BitVec.toNat_or, BitVec.toNat_mul]
  refine ⟨?_, hn⟩
  show 2 * value.toNat % 2 ^ 32 ||| 1 = _
  rw [Nat.mod_eq_of_lt (by omega), Nat.mul_comm]
  have := Nat.shiftLeft_add_eq_or_of_lt (show 1 < 2 ^ 1 by decide) value.toNat
  rw [Nat.shiftLeft_eq, pow_one] at this
  exact this.symm

theorem sevCode_of_not_pos {value : Word} (h : SevRange value) (hpos : ¬0 < value.toInt) :
    ∃ m < 2 ^ 30, (sevCode value).toNat = 2 * m ∧ (value.toNat + m = 2 ^ 32 ∨ m = 0 ∧ value.toNat = 0) := by
  obtain ⟨hlow, -⟩ := h
  have hlt := value.isLt
  rw [BitVec.toInt_eq_toNat_cond] at hlow hpos
  unfold sevCode
  rw [if_neg (by rw [BitVec.toInt_eq_toNat_cond]; exact hpos)]
  rw [BitVec.toNat_neg, BitVec.toNat_mul]
  show ∃ m < 2 ^ 30, (2 ^ 32 - 2 * value.toNat % 2 ^ 32) % 2 ^ 32 = 2 * m ∧ _
  by_cases hz : value.toNat = 0
  · exact ⟨0, by omega, by rw [hz]; rfl, .inr ⟨rfl, hz⟩⟩
  · refine ⟨2 ^ 32 - value.toNat, ?_, ?_, ?_⟩ <;> split at hlow <;> split at hpos <;> omega

/-- The code number is one that can be written. -/
theorem sevCode_succ_ne {value : Word} (h : SevRange value) : sevCode value + 1 ≠ 0 := by
  intro h0
  have hnat := congrArg BitVec.toNat h0
  rw [BitVec.toNat_add] at hnat
  change ((sevCode value).toNat + 1) % 2 ^ 32 = 0 at hnat
  by_cases hpos : 0 < value.toInt
  · obtain ⟨hc, hn⟩ := sevCode_of_pos h hpos
    omega
  · obtain ⟨m, hm, hc, -⟩ := sevCode_of_not_pos h hpos
    omega

/-- **A signed value comes back, but for one above zero.** -/
theorem sevBack_eq_iff {value : Word} (h : SevRange value) : sevBack value = value ↔ ¬0 < value.toInt := by
  have htwo : (2 : Word).toNat = 2 := rfl
  have hone : (1 : Word).toNat = 1 := rfl
  unfold sevBack
  rw [sevOfUev_toNat]
  by_cases hpos : 0 < value.toInt
  · obtain ⟨hc, hn⟩ := sevCode_of_pos h hpos
    rw [if_pos (by omega)]
    refine iff_of_false (fun heq => ?_) (not_not_intro hpos)
    have hnat := congrArg BitVec.toNat heq
    rw [BitVec.toNat_udiv, BitVec.toNat_add, hc, htwo, hone] at hnat
    omega
  · obtain ⟨m, hm, hc, hv⟩ := sevCode_of_not_pos h hpos
    rw [if_neg (by omega)]
    refine iff_of_true (BitVec.eq_of_toNat_eq ?_) hpos
    rw [BitVec.toNat_neg, BitVec.toNat_udiv, hc, htwo]
    omega

/-! ## What is coded -/

/-- The bits that a walk over a struct puts down. -/
def Walk.encode (s : F → Word) : Walk F → List Bool
  | .skip => []
  | .seq first rest => first.encode s ++ rest.encode s
  | .bit x => [decide (s x ≠ 0)]
  | .bits n x => msbBits (s x).toNat n
  | .uev x => uevBits (s x)
  | .sev x => uevBits (sevCode (s x))
  | .fail => []
  | .endless => []
  | .test x k => (k (s x)).encode s
  | .loop x k => (k (s x)).encode s

/-- The fields that are coded. -/
def Walk.coded (s : F → Word) : Walk F → List F
  | .skip => []
  | .seq first rest => first.coded s ++ rest.coded s
  | .bit x => [x]
  | .bits _ x => [x]
  | .uev x => [x]
  | .sev x => [x]
  | .fail => []
  | .endless => []
  | .test x k => (k (s x)).coded s
  | .loop x k => (k (s x)).coded s

/-- The coded fields are within their widths. -/
def Walk.InWidth (s : F → Word) : Walk F → Prop
  | .skip => True
  | .seq first rest => first.InWidth s ∧ rest.InWidth s
  | .bit x => (s x).toNat < 2
  | .bits n x => (s x).toNat < 2 ^ n
  | .uev x => (s x).toNat ≤ 2 ^ 32 - 2
  | .sev x => SevRange (s x)
  | .fail => True
  | .endless => True
  | .test x k => (k (s x)).InWidth s
  | .loop x k => (k (s x)).InWidth s

/-- Nothing on the way fails or goes on for ever. -/
def Walk.Ends (s : F → Word) : Walk F → Prop
  | .skip => True
  | .seq first rest => first.Ends s ∧ rest.Ends s
  | .bit _ => True
  | .bits n _ => n ≤ 32
  | .uev _ => True
  | .sev _ => True
  | .fail => False
  | .endless => False
  | .test x k => (k (s x)).Ends s
  | .loop x k => (k (s x)).Ends s

/-- The fields that are known to be coded behind a walk; those within a condition are not. -/
def Walk.out : Walk F → Set F → Set F
  | .skip, A => A
  | .seq first rest, A => rest.out (first.out A)
  | .bit x, A => insert x A
  | .bits _ x, A => insert x A
  | .uev x, A => insert x A
  | .sev x, A => insert x A
  | .fail, A => A
  | .endless, A => A
  | .test _ _, A => A
  | .loop _ _, A => A

/-- Only fields that are coded before are tested, and none that is signed. -/
def Walk.Scoped (signed : F → Prop) : Walk F → Set F → Prop
  | .skip, _ => True
  | .seq first rest, A => first.Scoped signed A ∧ rest.Scoped signed (first.out A)
  | .bit x, _ => ¬signed x
  | .bits _ x, _ => ¬signed x
  | .uev x, _ => ¬signed x
  | .sev x, _ => signed x
  | .fail, _ => True
  | .endless, _ => True
  | .test x k, A => x ∈ A ∧ ¬signed x ∧ ∀ value, (k value).Scoped signed A
  | .loop x k, A => x ∈ A ∧ ¬signed x ∧ ∀ value, (k value).Scoped signed A

/-- The number of primitives. -/
def Walk.count (s : F → Word) : Walk F → ℕ
  | .skip => 0
  | .seq first rest => first.count s + rest.count s
  | .bit _ => 1
  | .bits _ _ => 1
  | .uev _ => 1
  | .sev _ => 1
  | .fail => 0
  | .endless => 0
  | .test x k => (k (s x)).count s
  | .loop x k => (k (s x)).count s

theorem Walk.out_subset (s : F → Word) (w : Walk F) (A : Set F) : w.out A ⊆ A ∪ {x | x ∈ w.coded s} := by
  induction w generalizing A with
  | skip => exact Set.subset_union_left
  | seq first rest ihf ihr =>
    intro x hx
    rcases ihr _ hx with hx | hx
    · rcases ihf _ hx with hx | hx
      · exact .inl hx
      · exact .inr (List.mem_append_left _ hx)
    · exact .inr (List.mem_append_right _ hx)
  | bit x => exact fun y hy => hy.elim (fun h => .inr (List.mem_singleton.mpr h)) .inl
  | bits n x => exact fun y hy => hy.elim (fun h => .inr (List.mem_singleton.mpr h)) .inl
  | uev x => exact fun y hy => hy.elim (fun h => .inr (List.mem_singleton.mpr h)) .inl
  | sev x => exact fun y hy => hy.elim (fun h => .inr (List.mem_singleton.mpr h)) .inl
  | fail => exact Set.subset_union_left
  | endless => exact Set.subset_union_left
  | test x k ih => exact Set.subset_union_left
  | loop x k ih => exact Set.subset_union_left

theorem Walk.out_mono (w : Walk F) {A B : Set F} (h : A ⊆ B) : w.out A ⊆ w.out B := by
  induction w generalizing A B with
  | skip => exact h
  | seq first rest ihf ihr => exact ihr (ihf h)
  | bit x => exact Set.insert_subset_insert h
  | bits n x => exact Set.insert_subset_insert h
  | uev x => exact Set.insert_subset_insert h
  | sev x => exact Set.insert_subset_insert h
  | fail => exact h
  | endless => exact h
  | test x k ih => exact h
  | loop x k ih => exact h

theorem Walk.Scoped.mono {signed : F → Prop} {w : Walk F} {A B : Set F} (hs : w.Scoped signed A) (h : A ⊆ B) :
    w.Scoped signed B := by
  induction w generalizing A B with
  | skip => trivial
  | seq first rest ihf ihr => exact ⟨ihf hs.1 h, ihr hs.2 (first.out_mono h)⟩
  | bit x => exact hs
  | bits n x => exact hs
  | uev x => exact hs
  | sev x => exact hs
  | fail => trivial
  | endless => trivial
  | test x k ih => exact ⟨h hs.1, hs.2.1, fun value => ih value (hs.2.2 value) h⟩
  | loop x k ih => exact ⟨h hs.1, hs.2.1, fun value => ih value (hs.2.2 value) h⟩

theorem Walk.length_encode {s : F → Word} {w : Walk F} (h : w.Ends s) : (w.encode s).length ≤ 63 * w.count s := by
  induction w with
  | skip => exact Nat.zero_le _
  | seq first rest ihf ihr =>
    have hf := ihf h.1
    have hr := ihr h.2
    simp only [encode, count, List.length_append]
    omega
  | bit x => exact Nat.le_of_ble_eq_true rfl
  | bits n x =>
    simp only [encode, count, length_msbBits]
    exact (show n ≤ 32 from h).trans (by decide)
  | uev x => exact length_uevBits _
  | sev x => exact length_uevBits _
  | fail => exact h.elim
  | endless => exact h.elim
  | test x k ih => exact ih _ h
  | loop x k ih => exact ih _ h

/-! ## Writing -/

theorem latch_error {op : Rbsp → Word → Option (Rbsp × Except ℤ Word)} {st st' : Stream} {v v' : Word}
    (h : latch op st v = some (st', v')) (he : st.error ≠ 0) : st'.error ≠ 0 := by
  unfold latch at h
  rw [if_pos he] at h
  obtain ⟨rfl, -⟩ := Prod.mk.inj (Option.some.inj h)
  exact he

/-- An error stays. -/
theorem Walk.run_error [DecidableEq F] {ops : NalH264Ops} {w : Walk F} {st st' : Stream} {s s' : F → Word}
    (h : w.run ops st s = some (st', s')) (he : st.error ≠ 0) : st'.error ≠ 0 := by
  induction w generalizing st st' s s' with
  | skip =>
    obtain ⟨rfl, -⟩ := Prod.mk.inj (Option.some.inj h)
    exact he
  | seq first rest ihf ihr =>
    unfold run at h
    rcases hf : first.run ops st s with _ | ⟨st1, s1⟩
    · rw [hf] at h
      exact absurd h (Option.some_ne_none _).symm
    · rw [hf] at h
      exact ihr h (ihf hf he)
  | bit x =>
    obtain ⟨p, hp, heq⟩ := Option.map_eq_some_iff.mp h
    obtain ⟨rfl, -⟩ := Prod.mk.inj heq
    exact latch_error hp he
  | bits n x =>
    obtain ⟨p, hp, heq⟩ := Option.map_eq_some_iff.mp h
    obtain ⟨rfl, -⟩ := Prod.mk.inj heq
    exact latch_error hp he
  | uev x =>
    obtain ⟨p, hp, heq⟩ := Option.map_eq_some_iff.mp h
    obtain ⟨rfl, -⟩ := Prod.mk.inj heq
    exact latch_error hp he
  | sev x =>
    obtain ⟨p, hp, heq⟩ := Option.map_eq_some_iff.mp h
    obtain ⟨rfl, -⟩ := Prod.mk.inj heq
    exact latch_error hp he
  | fail =>
    obtain ⟨rfl, -⟩ := Prod.mk.inj (Option.some.inj h)
    exact show ¬-EINVAL = 0 by decide
  | endless => exact absurd h (Option.some_ne_none _).symm
  | test x k ih => exact ih _ h he
  | loop x k ih => exact ih _ h he

/-- A primitive that wrote its value. -/
theorem latch_written {f : Rbsp → Word → Rbsp × ℤ} {st st' : Stream} {v v' : Word}
    (h : latch (fun r v => written v (f r v)) st v = some (st', v')) (he : st'.error = 0) :
    st.error = 0 ∧ v' = v ∧ f st.rbsp v = (st'.rbsp, 0) := by
  by_cases h0 : st.error = 0
  · unfold latch at h
    rw [if_neg (not_not_intro h0)] at h
    unfold written at h
    dsimp only at h
    by_cases hw : (f st.rbsp v).2 = 0
    · rw [if_pos hw] at h
      obtain ⟨rfl, rfl⟩ := Prod.mk.inj (Option.some.inj h)
      exact ⟨h0, rfl, Prod.ext rfl hw⟩
    · rw [if_neg hw] at h
      obtain ⟨rfl, -⟩ := Prod.mk.inj (Option.some.inj h)
      exact absurd he hw
  · exact absurd he (latch_error h h0)

/-- **A walk that writes.** -/
theorem run_write [DecidableEq F] {w : Walk F} {st st' : Stream} {s s' : F → Word}
    (h : w.run write st s = some (st', s')) (he : st'.error = 0) (hf : st.rbsp.Fits (63 * w.count s)) :
    st.error = 0 ∧ s' = s ∧ w.Ends s ∧ Writes st.rbsp (w.encode s) st'.rbsp := by
  induction w generalizing st st' s' with
  | skip =>
    obtain ⟨rfl, rfl⟩ := Prod.mk.inj (Option.some.inj h)
    exact ⟨he, rfl, trivial, Writes.refl _⟩
  | seq first rest ihf ihr =>
    unfold Walk.run at h
    rcases hfirst : first.run write st s with _ | ⟨st1, s1⟩
    · rw [hfirst] at h
      exact absurd h (Option.some_ne_none _).symm
    · rw [hfirst] at h
      simp only [Walk.count, Nat.mul_add] at hf
      have he1 : st1.error = 0 := by
        by_contra hne
        exact Walk.run_error h hne he
      obtain ⟨h0, rfl, hends, hw⟩ := ihf hfirst he1 (hf.of_le (Nat.le_add_right _ _))
      have hlen := Walk.length_encode hends
      have hf1 : st.rbsp.Fits ((first.encode s1).length + 63 * rest.count s1) :=
        hf.of_le (Nat.add_le_add_right hlen _)
      obtain ⟨-, hs, hends', hw'⟩ := ihr h he (hf1.after hw)
      exact ⟨h0, hs, ⟨hends, hends'⟩, hw.trans hw'⟩
  | bit x =>
    obtain ⟨p, hp, heq⟩ := Option.map_eq_some_iff.mp h
    obtain ⟨rfl, rfl⟩ := Prod.mk.inj heq
    obtain ⟨h0, hv, hw⟩ := latch_written hp he
    exact ⟨h0, by rw [hv, Function.update_eq_self], trivial, rbspWriteBit_writes hw (hf.of_le (show 1 ≤ 63 by decide))⟩
  | bits n x =>
    obtain ⟨p, hp, heq⟩ := Option.map_eq_some_iff.mp h
    obtain ⟨rfl, rfl⟩ := Prod.mk.inj heq
    obtain ⟨h0, hv, hw⟩ := latch_written hp he
    have hn := rbspWriteBits_width hw
    exact ⟨h0, by rw [hv, Function.update_eq_self], hn,
      (rbspWriteBits_writes hw (hf.of_le (hn.trans (show 32 ≤ 63 by decide)))).2⟩
  | uev x =>
    obtain ⟨p, hp, heq⟩ := Option.map_eq_some_iff.mp h
    obtain ⟨rfl, rfl⟩ := Prod.mk.inj heq
    obtain ⟨h0, hv, hw⟩ := latch_written hp he
    exact ⟨h0, by rw [hv, Function.update_eq_self], trivial,
      (rbspWriteUev_writes hw (hf.of_le (length_uevBits _))).2⟩
  | sev x =>
    obtain ⟨p, hp, heq⟩ := Option.map_eq_some_iff.mp h
    obtain ⟨rfl, rfl⟩ := Prod.mk.inj heq
    obtain ⟨h0, hv, hw⟩ := latch_written hp he
    exact ⟨h0, by rw [hv, Function.update_eq_self], trivial,
      (rbspWriteUev_writes hw (hf.of_le (length_uevBits _))).2⟩
  | fail =>
    obtain ⟨rfl, rfl⟩ := Prod.mk.inj (Option.some.inj h)
    exact absurd he (show ¬-EINVAL = 0 by decide)
  | endless => exact absurd h (Option.some_ne_none _).symm
  | test x k ih => exact ih _ h he hf
  | loop x k ih => exact ih _ h he hf

/-! ## Reading -/

/-- What is read of a struct that was written. -/
def readBack (signed : F → Prop) [DecidablePred signed] (s : F → Word) (x : F) : Word :=
  if signed x then sevBack (s x) else s x

/-- A primitive that read a value: the fields that were read before stay. -/
theorem read_item [DecidableEq F] {signed : F → Prop} [DecidablePred signed] {s σ : F → Word} {A : Set F} {x : F}
    (st : Stream) {v : Word} {op : Rbsp → Word → Option (Rbsp × Except ℤ Word)} {r : Rbsp}
    (hA : ∀ y ∈ A, σ y = readBack signed s y) (hop : op r (σ x) = some (st.rbsp, .ok v)) (he : st.error = 0)
    (hv : v = readBack signed s x) :
    ∃ σ', (latch op ⟨r, 0⟩ (σ x)).map (fun p => (p.1, Function.update σ x p.2)) = some (st, σ') ∧
      ∀ y, y ∈ A ∨ y ∈ [x] → σ' y = readBack signed s y := by
  refine ⟨Function.update σ x v, ?_, fun y hy => ?_⟩
  · unfold latch
    rw [if_neg (not_not_intro rfl), hop]
    obtain ⟨r', e⟩ := st
    obtain rfl := he
    rfl
  · by_cases hyx : y = x
    · rw [hyx, Function.update_self, hv]
    · rw [Function.update_of_ne hyx]
      exact hA y (hy.resolve_right fun h => hyx (List.mem_singleton.mp h))

/-- A word with its value. -/
theorem ofNat_toNat_mod {v : Word} {n : ℕ} (h : v.toNat < 2 ^ n) : BitVec.ofNat 32 (v.toNat % 2 ^ n) = v := by
  rw [Nat.mod_eq_of_lt h, BitVec.ofNat_toNat, BitVec.setWidth_eq]

theorem ofNat_decide_ne_zero {v : Word} (h : v.toNat < 2) : BitVec.ofNat 32 (decide (v ≠ 0)).toNat = v := by
  refine BitVec.eq_of_toNat_eq ?_
  by_cases hv : v = 0
  · rw [hv]
    rfl
  · have hne : v.toNat ≠ 0 := fun h0 => hv (BitVec.eq_of_toNat_eq h0)
    rw [decide_eq_true hv]
    show 1 = v.toNat
    omega

/-- **A walk that reads.** -/
theorem run_read [DecidableEq F] {signed : F → Prop} [DecidablePred signed] {s σ : F → Word} {r : Rbsp} {w : Walk F}
    {A : Set F} {c c' : Cursor} (hs : w.Scoped signed A) (he : w.Ends s) (hi : w.InWidth s)
    (hA : ∀ x ∈ A, σ x = readBack signed s x) (hw : Walks (bitAt r.data) c (w.encode s) c')
    (hin : c'.pos ≤ 8 * r.size) (hlim : c'.pos < POS_LIMIT) :
    ∃ σ', w.run read ⟨r.at c, 0⟩ σ = some (⟨r.at c', 0⟩, σ') ∧
      ∀ x, x ∈ A ∨ x ∈ w.coded s → σ' x = readBack signed s x := by
  induction w generalizing σ A c c' with
  | skip =>
    obtain rfl := hw
    exact ⟨σ, rfl, fun x hx => hA x (hx.resolve_right List.not_mem_nil)⟩
  | seq first rest ihf ihr =>
    obtain ⟨d, hwf, hwr⟩ := walks_append.mp hw
    have hle := hwr.pos_le.1
    obtain ⟨σ1, hrun, hσ1⟩ := ihf hs.1 he.1 hi.1 hA hwf (by omega) (by omega)
    obtain ⟨σ2, hrun', hσ2⟩ := ihr (hs.2.mono (first.out_subset s A)) he.2 hi.2 hσ1 hwr hin hlim
    refine ⟨σ2, ?_, fun x hx => hσ2 x ?_⟩
    · unfold Walk.run
      rw [hrun]
      exact hrun'
    · rcases hx with hx | hx
      · exact .inl (.inl hx)
      · exact (List.mem_append.mp hx).imp .inr id
  | bit x =>
    refine read_item ⟨r.at c', 0⟩ hA ?_ rfl ((ofNat_decide_ne_zero hi).trans (if_neg hs).symm)
    obtain rfl : c' = c.next.put (decide (s x ≠ 0)) := hw.2.2
    unfold read
    dsimp only
    rw [rbspReadBit_eq hw hin hlim]
  | bits n x =>
    refine read_item ⟨r.at c', 0⟩ hA ?_ rfl ((ofNat_toNat_mod hi).trans (if_neg hs).symm)
    unfold read
    dsimp only
    rw [rbspReadBits_eq he hw hin hlim]
  | uev x =>
    have hx : s x + 1 ≠ 0 := fun h0 => by
      have hnat := congrArg BitVec.toNat h0
      rw [BitVec.toNat_add] at hnat
      change ((s x).toNat + 1) % 2 ^ 32 = 0 at hnat
      have : (s x).toNat ≤ 2 ^ 32 - 2 := hi
      omega
    exact read_item ⟨r.at c', 0⟩ hA (rbspReadUev_eq hx hw hin hlim) rfl (if_neg hs).symm
  | sev x =>
    refine read_item ⟨r.at c', 0⟩ hA ?_ rfl (if_pos hs).symm
    show rbspReadSev (r.at c) = some (r.at c', .ok (sevBack (s x)))
    unfold rbspReadSev
    rw [rbspReadUev_eq (sevCode_succ_ne hi) hw hin hlim]
    rfl
  | fail => exact he.elim
  | endless => exact he.elim
  | test x k ih =>
    obtain ⟨hx, hsx, hk⟩ := hs
    have hσx : σ x = s x := (hA x hx).trans (if_neg hsx)
    unfold Walk.run
    rw [hσx]
    exact ih _ (hk _) he hi hA hw hin hlim
  | loop x k ih =>
    obtain ⟨hx, hsx, hk⟩ := hs
    have hσx : σ x = s x := (hA x hx).trans (if_neg hsx)
    unfold Walk.run
    rw [hσx]
    exact ih _ (hk _) he hi hA hw hin hlim

/-! ## The end of a unit -/

/-- The trailing bits that are written. -/
theorem trailing_write {st st' : Stream} (h : nalH264RbspTrailingBits write st = some st') (he : st'.error = 0) :
    st.error = 0 ∧ writeTrailingBits st.rbsp = (st'.rbsp, 0) := by
  unfold nalH264RbspTrailingBits at h
  rcases hbit : latch write.rbspBit st 1 with _ | ⟨st1, v1⟩
  · rw [hbit] at h
    exact absurd h (Option.some_ne_none _).symm
  · rw [hbit] at h
    obtain ⟨p, hp, rfl⟩ := Option.map_eq_some_iff.mp h
    obtain ⟨h1, -, hbits⟩ := latch_written (f := fun r v => rbspWriteBits r _ v.toNat) hp he
    obtain ⟨h0, -, hw⟩ := latch_written (f := fun r v => rbspWriteBit r (decide (v ≠ 0))) hbit h1
    refine ⟨h0, ?_⟩
    change rbspWriteBit st.rbsp true = (st1.rbsp, 0) at hw
    unfold writeTrailingBits
    rw [hw]
    exact hbits

/-- The trailing bits that are read. -/
theorem trailing_read {r : Rbsp} {c c' : Cursor} {k : ℕ} (hk : k < 8)
    (hw : Walks (bitAt r.data) c (true :: List.replicate k false) c') (hend : c'.pos % 8 = 0)
    (hin : c'.pos ≤ 8 * r.size) (hlim : c'.pos < POS_LIMIT) :
    nalH264RbspTrailingBits read ⟨r.at c, 0⟩ = some ⟨r.at c', 0⟩ := by
  have hrest := hw.2.2
  have hpos : c'.pos = (c.next.put true).pos + k := by
    have hzeros : (c.next.put true).zeros = 0 := rfl
    have := congrArg Cursor.pos (hrest.eq_puts (by rw [hzeros, List.length_replicate]; omega))
    rwa [Cursor.puts_pos, List.length_replicate] at this
  have hbit : latch read.rbspBit ⟨r.at c, 0⟩ 1 = some (⟨r.at (c.next.put true), 0⟩, 1) := by
    unfold latch read
    dsimp only
    rw [if_neg (not_not_intro rfl), rbspReadBit_eq hw hin hlim]
    rfl
  rw [← msbBits_zero] at hrest
  unfold nalH264RbspTrailingBits
  rw [hbit]
  dsimp only
  have hcount : ((r.at (c.next.put true)).pos + 7) / 8 * 8 - (r.at (c.next.put true)).pos = k := by
    show ((c.next.put true).pos + 7) / 8 * 8 - (c.next.put true).pos = k
    omega
  rw [hcount]
  unfold latch read
  dsimp only
  rw [if_neg (not_not_intro rfl), rbspReadBits_eq (by omega) hrest hin hlim]
  rfl

/-! ## The start of a unit -/

/-- The buffer behind the start code. -/
def startCoded (data : ℕ → UInt8) (n : ℕ) : Rbsp :=
  ⟨Function.update (Function.update (Function.update (Function.update data 0 0) 1 0) 2 0) 3 1, n, 32, 0, []⟩

theorem divRoundUp8_start (data : ℕ → UInt8) (n zeros : ℕ) : divRoundUp8 (rbspInit data n zeros).rbsp.pos = 0 := by
  show divRoundUp8 0 = 0
  decide

theorem writeStartCode_eq {data : ℕ → UInt8} {n : ℕ} (hn : 4 ≤ n) :
    nalH264WriteStartCodePrefix (rbspInit data n 0) = ⟨startCoded data n, 0⟩ := by
  unfold nalH264WriteStartCodePrefix
  dsimp only
  rw [divRoundUp8_start, if_neg (show ¬(rbspInit data n 0).rbsp.size < 0 + 4 from Nat.not_lt.mpr hn)]
  rfl

theorem writeStartCode_error {data : ℕ → UInt8} {n : ℕ} (hn : n < 4) :
    (nalH264WriteStartCodePrefix (rbspInit data n 0)).error ≠ 0 := by
  unfold nalH264WriteStartCodePrefix
  dsimp only
  rw [divRoundUp8_start, if_pos (show (rbspInit data n 0).rbsp.size < 0 + 4 from hn)]
  exact show ¬-EINVAL = 0 by decide

/-- A byte is its bits. -/
theorem byte_eq_of_bits {data data' : ℕ → UInt8} {b : ℕ} (h : ∀ i < 8, bitAt data (8 * b + i) = bitAt data' (8 * b + i)) :
    data b = data' b := by
  refine UInt8.toBitVec_inj.mp (BitVec.eq_of_getLsbD_eq fun i hi => ?_)
  have hbit := h (7 - i) (by omega)
  unfold bitAt at hbit
  rw [show (8 * b + (7 - i)) / 8 = b by omega, show 7 - (8 * b + (7 - i)) % 8 = i by omega, getBit_eq _ hi,
    getBit_eq _ hi] at hbit
  exact hbit

/-- The start code is found where it was written. -/
theorem readStartCode_eq {data : ℕ → UInt8} {n : ℕ} {r' : Rbsp} {k : ℕ} (hk : 4 ≤ k)
    (h : Agrees (bitAt r'.data) (startCoded data n)) :
    nalH264ReadStartCodePrefix (rbspInit r'.data k 0) = ⟨⟨r'.data, k, 32, 0, []⟩, 0⟩ := by
  have hbyte : ∀ b < 4, r'.data b = (startCoded data n).data b := fun b hb =>
    byte_eq_of_bits fun i hi => h (8 * b + i) (by show 8 * b + i < 32; omega)
  unfold nalH264ReadStartCodePrefix
  dsimp only
  rw [divRoundUp8_start, if_neg (show ¬(rbspInit r'.data k 0).rbsp.size < 0 + 4 from Nat.not_lt.mpr hk), if_neg]
  · rfl
  · show ¬(r'.data 0 ≠ 0 ∨ r'.data 1 ≠ 0 ∨ r'.data 2 ≠ 0 ∨ r'.data 3 ≠ 1)
    rw [hbyte 0 (by omega), hbyte 1 (by omega), hbyte 2 (by omega), hbyte 3 (by omega)]
    simp [startCoded, Function.update]

/-! ## A unit -/

/-- The bits of a header. -/
def headerBits (nalUnitType : Word) : List Bool := nalUnitHeader.encode (headerOf nalUnitType)

/-- The cursor behind the start code. -/
def bodyStart : Cursor := ⟨32, 0, []⟩

/-- Errors are -EINVAL. -/
def Stream.Sound (st : Stream) : Prop := st.error = 0 ∨ st.error = -EINVAL

theorem latch_sound {op : Rbsp → Word → Option (Rbsp × Except ℤ Word)} {st st' : Stream} {v v' : Word}
    (hop : ∀ r v r' e, op r v = some (r', .error e) → e = -EINVAL) (h : latch op st v = some (st', v'))
    (hs : st.Sound) : st'.Sound := by
  unfold latch at h
  by_cases he : st.error ≠ 0
  · rw [if_pos he] at h
    obtain ⟨rfl, -⟩ := Prod.mk.inj (Option.some.inj h)
    exact hs
  · rw [if_neg he] at h
    rcases ho : op st.rbsp v with _ | ⟨r, e | v1⟩
    · rw [ho] at h
      exact absurd h (Option.some_ne_none _).symm
    · rw [ho] at h
      obtain ⟨rfl, -⟩ := Prod.mk.inj (Option.some.inj h)
      exact .inr (hop _ _ _ _ ho)
    · rw [ho] at h
      obtain ⟨rfl, -⟩ := Prod.mk.inj (Option.some.inj h)
      exact .inl rfl

theorem writeBitsWith_sound {writeBit : Rbsp → Bool → Rbsp × ℤ} (hbit : ∀ r v, (writeBit r v).2 = 0 ∨
    (writeBit r v).2 = -EINVAL) (n value : ℕ) (r : Rbsp) :
    (writeBitsWith writeBit n value r).2 = 0 ∨ (writeBitsWith writeBit n value r).2 = -EINVAL := by
  induction n generalizing r with
  | zero => exact .inl rfl
  | succ n ih =>
    unfold writeBitsWith
    dsimp only
    split
    · exact hbit _ _
    · exact ih _

theorem plainWriteBit_sound (r : Rbsp) (v : Bool) : (plainWriteBit r v).2 = 0 ∨ (plainWriteBit r v).2 = -EINVAL := by
  by_cases h : (plainWriteBit r v).2 = 0
  · exact .inl h
  · unfold plainWriteBit
    rw [if_pos (plainWriteBit_error h).2]
    exact .inr rfl

theorem rbspWriteBit_sound (r : Rbsp) (v : Bool) : (rbspWriteBit r v).2 = 0 ∨ (rbspWriteBit r v).2 = -EINVAL :=
  plainWriteBit_sound _ v

theorem rbspWriteBits_sound (r : Rbsp) (n value : ℕ) :
    (rbspWriteBits r n value).2 = 0 ∨ (rbspWriteBits r n value).2 = -EINVAL := by
  unfold rbspWriteBits
  split
  · exact .inr rfl
  · exact writeBitsWith_sound rbspWriteBit_sound n value r

theorem rbspWriteUev_sound (r : Rbsp) (value : Word) :
    (rbspWriteUev r value).2 = 0 ∨ (rbspWriteUev r value).2 = -EINVAL := by
  unfold rbspWriteUev
  split
  · exact .inr rfl
  · dsimp only
    split
    · exact rbspWriteBits_sound _ _ _
    · exact rbspWriteBits_sound _ _ _

theorem written_sound {v : Word} {w : Rbsp × ℤ} {r' : Rbsp} {e : ℤ} (hw : w.2 = 0 ∨ w.2 = -EINVAL)
    (h : written v w = some (r', .error e)) : e = -EINVAL := by
  unfold written at h
  rcases hw with h0 | h0
  · rw [if_pos h0] at h
    exact absurd (Prod.mk.inj (Option.some.inj h)).2 (by simp)
  · rw [if_neg (by rw [h0]; decide), h0] at h
    exact (Except.error.inj (Prod.mk.inj (Option.some.inj h)).2).symm

/-- A set of primitives with no error but -EINVAL. -/
structure NalH264Ops.Sound (ops : NalH264Ops) : Prop where
  bit : ∀ r v r' e, ops.rbspBit r v = some (r', .error e) → e = -EINVAL
  bits : ∀ n r v r' e, ops.rbspBits n r v = some (r', .error e) → e = -EINVAL
  uev : ∀ r v r' e, ops.rbspUev r v = some (r', .error e) → e = -EINVAL
  sev : ∀ r v r' e, ops.rbspSev r v = some (r', .error e) → e = -EINVAL

theorem write_sound : write.Sound where
  bit _ _ _ _ h := written_sound (rbspWriteBit_sound _ _) h
  bits _ _ _ _ _ h := written_sound (rbspWriteBits_sound _ _ _) h
  uev _ _ _ _ h := written_sound (rbspWriteUev_sound _ _) h
  sev _ _ _ _ h := written_sound (rbspWriteUev_sound _ _) h

theorem Walk.run_sound [DecidableEq F] {ops : NalH264Ops} (hops : ops.Sound) {w : Walk F} {st st' : Stream}
    {s s' : F → Word} (h : w.run ops st s = some (st', s')) (hs : st.Sound) : st'.Sound := by
  induction w generalizing st st' s s' with
  | skip =>
    obtain ⟨rfl, -⟩ := Prod.mk.inj (Option.some.inj h)
    exact hs
  | seq first rest ihf ihr =>
    unfold run at h
    rcases hf : first.run ops st s with _ | ⟨st1, s1⟩
    · rw [hf] at h
      exact absurd h (Option.some_ne_none _).symm
    · rw [hf] at h
      exact ihr h (ihf hf hs)
  | bit x =>
    obtain ⟨p, hp, heq⟩ := Option.map_eq_some_iff.mp h
    obtain ⟨rfl, -⟩ := Prod.mk.inj heq
    exact latch_sound hops.bit hp hs
  | bits n x =>
    obtain ⟨p, hp, heq⟩ := Option.map_eq_some_iff.mp h
    obtain ⟨rfl, -⟩ := Prod.mk.inj heq
    exact latch_sound (hops.bits n) hp hs
  | uev x =>
    obtain ⟨p, hp, heq⟩ := Option.map_eq_some_iff.mp h
    obtain ⟨rfl, -⟩ := Prod.mk.inj heq
    exact latch_sound hops.uev hp hs
  | sev x =>
    obtain ⟨p, hp, heq⟩ := Option.map_eq_some_iff.mp h
    obtain ⟨rfl, -⟩ := Prod.mk.inj heq
    exact latch_sound hops.sev hp hs
  | fail =>
    obtain ⟨rfl, -⟩ := Prod.mk.inj (Option.some.inj h)
    exact .inr rfl
  | endless => exact absurd h (Option.some_ne_none _).symm
  | test x k ih => exact ih _ h hs
  | loop x k ih => exact ih _ h hs

theorem trailing_sound {ops : NalH264Ops} (hops : ops.Sound) {st st' : Stream}
    (h : nalH264RbspTrailingBits ops st = some st') (hs : st.Sound) : st'.Sound := by
  unfold nalH264RbspTrailingBits at h
  rcases hbit : latch ops.rbspBit st 1 with _ | ⟨st1, v1⟩
  · rw [hbit] at h
    exact absurd h (Option.some_ne_none _).symm
  · rw [hbit] at h
    obtain ⟨p, hp, rfl⟩ := Option.map_eq_some_iff.mp h
    exact latch_sound (hops.bits _) hp (latch_sound hops.bit hbit hs)

/-- A unit that was written in `k` bytes. -/
structure UnitWritten (type : Word) (body : Walk F) (s : F → Word) (data : ℕ → UInt8) (n : ℕ) (r : Rbsp) (k : ℕ) :
    Prop where
  start : 4 ≤ k
  pos : r.pos = 8 * k
  limit : 8 * k < POS_LIMIT
  ends : body.Ends s
  startCode : Agrees (bitAt r.data) (startCoded data n)
  walk : ∃ j < 8, Walks (bitAt r.data) bodyStart
    (headerBits type ++ (body.encode s ++ true :: List.replicate j false)) r.cursor

theorem start_sound (data : ℕ → UInt8) (n : ℕ) : (nalH264WriteStartCodePrefix (rbspInit data n 0)).Sound := by
  by_cases hn : n < 4
  · unfold nalH264WriteStartCodePrefix
    dsimp only
    rw [divRoundUp8_start, if_pos (show (rbspInit data n 0).rbsp.size < 0 + 4 from hn)]
    exact .inr rfl
  · rw [writeStartCode_eq (Nat.le_of_not_lt hn)]
    exact .inl rfl

theorem writeUnit_ok [DecidableEq F] {type : Word} {body : Walk F} {data : ℕ → UInt8} {n k : ℕ} {s : F → Word}
    {st : Stream} (h : nalH264WriteUnit type body data n 0 s = some (st, (k : ℤ))) (hcount : body.count s ≤ 2000) :
    UnitWritten type body s data n st.rbsp k := by
  unfold nalH264WriteUnit at h
  rcases hheader : nalUnitHeader.run write (nalH264WriteStartCodePrefix (rbspInit data n 0)) (headerOf type)
    with _ | ⟨st1, s1⟩
  · rw [hheader] at h
    exact absurd h (Option.some_ne_none _).symm
  rw [hheader] at h
  dsimp only at h
  rcases hbody : body.run write st1 s with _ | ⟨st2, s2⟩
  · rw [hbody] at h
    exact absurd h (Option.some_ne_none _).symm
  rw [hbody] at h
  obtain ⟨st3, htrail, heq⟩ := Option.map_eq_some_iff.mp h
  obtain ⟨rfl, hk⟩ := Prod.mk.inj heq
  have hsound := trailing_sound write_sound htrail
    (Walk.run_sound write_sound hbody (Walk.run_sound write_sound hheader (start_sound data n)))
  have he : st3.error = 0 := by
    rcases hsound with he | he
    · exact he
    · unfold nalResult at hk
      rw [he, if_pos (by decide)] at hk
      exact absurd hk (by unfold EINVAL; omega)
  obtain ⟨he2, htrail⟩ := trailing_write htrail he
  have he1 : st1.error = 0 := by
    by_contra hne
    exact Walk.run_error hbody hne he2
  have hn : 4 ≤ n := by
    by_contra hlt
    exact Walk.run_error hheader (writeStartCode_error (Nat.lt_of_not_le hlt)) he1
  rw [writeStartCode_eq hn] at hheader
  have hfits : (startCoded data n).Fits (63 * 3 + (63 * 2000 + 8)) :=
    .inl (show 32 + 9 * (63 * 3 + (63 * 2000 + 8)) < 2 ^ 32 by decide)
  obtain ⟨-, -, hends1, hw1⟩ := run_write hheader he1 (hfits.of_le (Nat.le_add_right _ _))
  have hlen1 := Walk.length_encode hends1
  have hfits1 := Rbsp.Fits.after (hfits.of_le (Nat.add_le_add_right hlen1 _)) hw1
  obtain ⟨-, -, hends2, hw2⟩ := run_write hbody he2 (hfits1.of_le (by omega))
  have hlen2 := Walk.length_encode hends2
  have hfits2 := Rbsp.Fits.after (hfits1.of_le (Nat.add_le_add_right (show _ ≤ 63 * 2000 by omega) 8)) hw2
  obtain ⟨j, hj, hw3, hend⟩ := writeTrailingBits_writes htrail hfits2
  have hw := hw1.trans (hw2.trans hw3)
  have hlen := hw.walks_self.pos_le
  rw [List.length_append, List.length_append, List.length_cons, List.length_replicate] at hlen
  change 32 + _ ≤ st3.rbsp.pos ∧ st3.rbsp.pos ≤ 32 + _ at hlen
  have hcount1 : nalUnitHeader.count (headerOf type) = 3 := rfl
  have hpos : st3.rbsp.pos = 8 * k := by
    unfold nalResult divRoundUp8 POS_LIMIT at hk
    rw [if_neg (not_not_intro he)] at hk
    omega
  refine ⟨by omega, hpos, ?_, hends2, (hw.walks _ fun _ _ => rfl).1, j, hj, hw.walks_self⟩
  unfold POS_LIMIT
  omega

/-- The reader of a buffer. -/
def readerOf (data : ℕ → UInt8) (k : ℕ) : Rbsp := ⟨data, k, 0, 0, []⟩

/-- The walk of a unit, from behind its header. -/
theorem UnitWritten.body {type : Word} {body : Walk F} {s : F → Word} {data : ℕ → UInt8} {n k : ℕ} {r : Rbsp}
    (h : UnitWritten type body s data n r k) : ∃ j < 8,
      Walks (bitAt r.data) bodyStart (headerBits type) (bodyStart.puts (headerBits type)) ∧
      Walks (bitAt r.data) (bodyStart.puts (headerBits type)) (body.encode s ++ true :: List.replicate j false)
        r.cursor := by
  obtain ⟨j, hj, hw⟩ := h.walk
  obtain ⟨d, hwh, hwb⟩ := walks_append.mp hw
  have hlen : (headerBits type).length = 8 := rfl
  have hd := hwh.eq_puts (by rw [hlen]; decide)
  rw [hd] at hwh hwb
  exact ⟨j, hj, hwh, hwb⟩

theorem readBody_eq [DecidableEq F] {signed : F → Prop} [DecidablePred signed] {type : Word} {body : Walk F}
    {s : F → Word} {data : ℕ → UInt8} {n k : ℕ} {r : Rbsp} (h : UnitWritten type body s data n r k)
    (hs : body.Scoped signed ∅) (hi : body.InWidth s) (σ : F → Word) :
    ∃ σ', nalH264ReadBody body ⟨(readerOf r.data k).at (bodyStart.puts (headerBits type)), 0⟩ σ = some (σ', (k : ℤ)) ∧
      ∀ x ∈ body.coded s, σ' x = readBack signed s x := by
  obtain ⟨j, hj, -, hwb⟩ := h.body
  obtain ⟨d, hw, htrail⟩ := walks_append.mp hwb
  have hpos : r.cursor.pos = 8 * k := h.pos
  have hlimit := h.limit
  have hle := htrail.pos_le.1
  obtain ⟨σ', hrun, hσ'⟩ := run_read (r := readerOf r.data k) hs h.ends hi (fun x hx => hx.elim) hw
    (show d.pos ≤ 8 * k by omega) (by omega)
  refine ⟨σ', ?_, fun x hx => hσ' x (.inr hx)⟩
  unfold nalH264ReadBody
  rw [hrun]
  dsimp only
  rw [trailing_read (r := readerOf r.data k) hj htrail (by omega) (show r.cursor.pos ≤ 8 * k by omega) (by omega)]
  show some (σ', nalResult ⟨(readerOf r.data k).at r.cursor, 0⟩) = _
  have hres : nalResult ⟨(readerOf r.data k).at r.cursor, 0⟩ = (k : ℤ) := by
    unfold nalResult divRoundUp8
    rw [if_neg (not_not_intro rfl)]
    show (((r.cursor.pos + 7) % POS_LIMIT / 8 : ℕ) : ℤ) = k
    unfold POS_LIMIT at hlimit ⊢
    rw [hpos]
    omega
  rw [hres]

/-- The header is read as it was written. -/
theorem readHeader_eq {type : Word} (htype : type.toNat < 2 ^ 5) {body : Walk F} {s : F → Word} {data : ℕ → UInt8}
    {n k : ℕ} {r : Rbsp} (h : UnitWritten type body s data n r k) (σ : HeaderField → Word) :
    ∃ σ', nalUnitHeader.run read ⟨⟨r.data, k, 32, 0, []⟩, 0⟩ σ =
        some (⟨(readerOf r.data k).at (bodyStart.puts (headerBits type)), 0⟩, σ') ∧ σ' = headerOf type := by
  obtain ⟨j, hj, hwh, hwb⟩ := h.body
  have hpos : r.cursor.pos = 8 * k := h.pos
  have hlimit := h.limit
  have hle := hwb.pos_le.1
  have hscoped : nalUnitHeader.Scoped (fun _ => False) ∅ := ⟨id, id, id, trivial⟩
  have hends : nalUnitHeader.Ends (headerOf type) :=
    ⟨trivial, show 2 ≤ 32 by decide, show 5 ≤ 32 by decide, trivial⟩
  have hwidth : nalUnitHeader.InWidth (headerOf type) :=
    ⟨show 0 < 2 by decide, show 0 < 2 ^ 2 by decide, htype, trivial⟩
  obtain ⟨σ', hrun, hσ'⟩ := run_read (r := readerOf r.data k) hscoped hends hwidth (fun x hx => hx.elim) hwh
    (show _ ≤ 8 * k by omega) (by omega)
  refine ⟨σ', hrun, funext fun x => ?_⟩
  rw [hσ' x (.inr (by cases x <;> simp [nalUnitHeader, Walk.block, Walk.coded]))]
  exact if_neg id

/-- Every field that is coded comes back if and only if no signed one is above zero. -/
theorem readBack_iff {signed : F → Prop} [DecidablePred signed] {s σ' : F → Word} {xs : List F}
    (h : ∀ x ∈ xs, σ' x = readBack signed s x) (hrange : ∀ x ∈ xs, signed x → SevRange (s x)) :
    (∀ x ∈ xs, σ' x = s x) ↔ ∀ x ∈ xs, signed x → ¬0 < (s x).toInt := by
  refine forall₂_congr fun x hx => ?_
  rw [h x hx]
  unfold readBack
  by_cases hsx : signed x
  · rw [if_pos hsx, sevBack_eq_iff (hrange x hx hsx)]
    exact ⟨fun hv _ => hv, fun hv => hv hsx⟩
  · rw [if_neg hsx]
    exact ⟨fun _ h' => absurd h' hsx, fun _ => rfl⟩

theorem Walk.range_of_coded {signed : F → Prop} {s : F → Word} {w : Walk F} {A : Set F} (hs : w.Scoped signed A)
    (hi : w.InWidth s) {x : F} (hx : x ∈ w.coded s) (hsx : signed x) : SevRange (s x) := by
  induction w generalizing A with
  | skip => exact absurd hx List.not_mem_nil
  | seq first rest ihf ihr =>
    rcases List.mem_append.mp hx with hx | hx
    · exact ihf hs.1 hi.1 hx
    · exact ihr hs.2 hi.2 hx
  | bit y => exact absurd hsx (List.mem_singleton.mp hx ▸ hs)
  | bits n y => exact absurd hsx (List.mem_singleton.mp hx ▸ hs)
  | uev y => exact absurd hsx (List.mem_singleton.mp hx ▸ hs)
  | sev y =>
    rw [List.mem_singleton.mp hx]
    exact hi
  | fail => exact absurd hx List.not_mem_nil
  | endless => exact absurd hx List.not_mem_nil
  | test y k ih => exact ih _ (hs.2.2 _) hi hx
  | loop y k ih => exact ih _ (hs.2.2 _) hi hx

/-! ## The parameter sets -/

/-- The signed fields of a `struct nal_h264_sps`. -/
def SpsField.Signed : SpsField → Prop
  | .offsetForNonRefPic => True
  | .offsetForTopToBottomField => True
  | .offsetForRefFrame _ => True
  | _ => False

/-- The signed fields of a `struct nal_h264_pps`. -/
def PpsField.Signed : PpsField → Prop
  | .picInitQpMinus26 => True
  | .picInitQsMinus26 => True
  | .chromaQpIndexOffset => True
  | _ => False

instance : DecidablePred SpsField.Signed := fun x => by
  cases x <;> unfold SpsField.Signed <;> infer_instance

instance : DecidablePred PpsField.Signed := fun x => by
  cases x <;> unfold PpsField.Signed <;> infer_instance

theorem Walk.subset_out (w : Walk F) (A : Set F) : A ⊆ w.out A := by
  induction w generalizing A with
  | skip => exact le_rfl
  | seq first rest ihf ihr => exact (ihf A).trans (ihr _)
  | bit x => exact Set.subset_insert x A
  | bits n x => exact Set.subset_insert x A
  | uev x => exact Set.subset_insert x A
  | sev x => exact Set.subset_insert x A
  | fail => exact le_rfl
  | endless => exact le_rfl
  | test x k ih => exact le_rfl
  | loop x k ih => exact le_rfl

theorem scoped_upto {signed : F → Prop} {body : ℕ → Walk F} {A : Set F} (h : ∀ i, (body i).Scoped signed A)
    (first n : ℕ) : (Walk.upto body first n).Scoped signed A := by
  induction n generalizing first A with
  | zero => trivial
  | succ n ih => exact ⟨h first, ih (fun i => (h i).mono ((body first).subset_out A)) (first + 1)⟩

theorem scoped_ite {signed : F → Prop} {c : Prop} [Decidable c] {w w' : Walk F} {A : Set F} :
    (if c then w else w').Scoped signed A ↔ (c → w.Scoped signed A) ∧ (¬c → w'.Scoped signed A) := by
  split <;> simp [*]

theorem hrd_scoped {signed : F → Prop} {f : HrdField → F} (hf : ∀ x, ¬signed (f x)) (A : Set F) :
    (nalH264RbspHrdParameters f).Scoped signed A := by
  have hloop : ∀ (value : Word) (B : Set F), (cpbLoop f value).Scoped signed B := by
    intro value B
    unfold cpbLoop
    refine scoped_ite.mpr ⟨fun _ => trivial, fun _ => scoped_upto (fun i => ?_) 0 _⟩
    simp [Walk.block, Walk.Scoped, hf]
  simp [nalH264RbspHrdParameters, Walk.block, Walk.Scoped, Walk.out, hf, hloop]

theorem vui_scoped {signed : F → Prop} {f : VuiField → F} (hf : ∀ x, ¬signed (f x)) (A : Set F) :
    (nalH264RbspVuiParameters f).Scoped signed A := by
  have hhrd : ∀ (g : HrdField → VuiField) (B : Set F), (nalH264RbspHrdParameters (f ∘ g)).Scoped signed B :=
    fun g B => hrd_scoped (fun x => hf (g x)) B
  simp [nalH264RbspVuiParameters, Walk.block, Walk.Scoped, Walk.out, Walk.when, scoped_ite, hf, hhrd]

theorem picOrderCnt_scoped (type : Word) (A : Set SpsField) : (picOrderCntSwitch type).Scoped SpsField.Signed A := by
  unfold picOrderCntSwitch
  refine scoped_ite.mpr ⟨fun _ => ?_, fun _ => scoped_ite.mpr ⟨fun _ => ?_, fun _ => trivial⟩⟩
  · exact id
  · have hloop : ∀ (n : ℕ) (B : Set SpsField),
        (Walk.upto (fun i => .sev (SpsField.offsetForRefFrame i)) 0 n).Scoped SpsField.Signed B := by
      intro n B
      refine scoped_upto (fun i => ?_) 0 n
      exact trivial
    simp [Walk.block, Walk.Scoped, Walk.out, SpsField.Signed, hloop]

theorem sps_scoped : nalH264RbspSps.Scoped SpsField.Signed ∅ := by
  have hvui : ∀ A, (nalH264RbspVuiParameters SpsField.vui).Scoped SpsField.Signed A := fun A => vui_scoped (fun _ => id) A
  simp [nalH264RbspSps, Walk.block, Walk.Scoped, Walk.out, Walk.when, scoped_ite, SpsField.Signed, hvui,
    picOrderCnt_scoped]

theorem sliceGroup_scoped (type : Word) {A : Set PpsField} (hA : .numSliceGroupsMinus1 ∈ A) :
    (sliceGroupSwitch type).Scoped PpsField.Signed A := by
  unfold sliceGroupSwitch
  refine scoped_ite.mpr ⟨fun _ => ⟨hA, id, fun n => scoped_upto (fun i => ?_) 0 _⟩, fun _ => scoped_ite.mpr
    ⟨fun _ => ⟨hA, id, fun n => scoped_upto (fun i => ?_) 0 _⟩, fun _ => scoped_ite.mpr
      ⟨fun _ => ?_, fun _ => scoped_ite.mpr ⟨fun _ => ?_, fun _ => trivial⟩⟩⟩⟩
  · exact id
  · exact ⟨id, id, trivial⟩
  · exact ⟨id, id, trivial⟩
  · exact ⟨id, ⟨.inr hA, id, fun groups => ⟨.inl rfl, id, fun n => scoped_upto (fun i => id) 0 _⟩⟩, trivial⟩

theorem pps_scoped : nalH264RbspPps.Scoped PpsField.Signed ∅ := by
  have hswitch : ∀ (type : Word) (A : Set PpsField),
      (sliceGroupSwitch type).Scoped PpsField.Signed (insert .sliceGroupMapType (insert .numSliceGroupsMinus1 A)) :=
    fun type A => sliceGroup_scoped type (.inr (.inl rfl))
  simp [nalH264RbspPps, Walk.block, Walk.Scoped, Walk.out, Walk.when, scoped_ite, PpsField.Signed, hswitch]

/-! ## The number of fields -/

theorem count_ite_skip {s : F → Word} {c : Prop} [Decidable c] {w : Walk F} :
    (if c then w else .skip).count s ≤ w.count s := by
  split
  · exact le_rfl
  · exact Nat.zero_le _

/-- The steps of a block are counted one by one. -/
theorem count_block_le {s : F → Word} (ms : List ℕ) {ws : List (Walk F)}
    (h : List.Forall₂ (fun w m => w.count s ≤ m) ws ms) : (Walk.block ws).count s ≤ ms.sum := by
  induction h with
  | nil => exact le_rfl
  | cons hw _ ih => exact Nat.add_le_add hw ih

theorem count_when_le {s : F → Word} {x : F} {p : Word → Bool} {w : Walk F} {m : ℕ} (h : w.count s ≤ m) :
    (Walk.when x p w).count s ≤ m :=
  count_ite_skip.trans h

theorem count_upto_le {s : F → Word} {body : ℕ → Walk F} {m : ℕ} (h : ∀ i, (body i).count s ≤ m) (first n : ℕ) :
    (Walk.upto body first n).count s ≤ m * n := by
  induction n generalizing first with
  | zero => exact le_rfl
  | succ n ih =>
    have hrec := ih (first + 1)
    have hbody := h first
    show (body first).count s + (Walk.upto body (first + 1) n).count s ≤ m * (n + 1)
    rw [Nat.mul_succ]
    omega

theorem hrd_count {s : F → Word} {f : HrdField → F} (h : (s (f .cpbCntMinus1)).toNat < 16) :
    (nalH264RbspHrdParameters f).count s ≤ 55 := by
  have hloop : (cpbLoop f (s (f .cpbCntMinus1))).count s ≤ 48 := by
    unfold cpbLoop
    split
    · exact Nat.zero_le _
    · exact (count_upto_le (m := 3) (fun i => le_rfl) 0 _).trans (by omega)
  simp only [nalH264RbspHrdParameters, Walk.block, Walk.count]
  omega

theorem vui_count {s : F → Word} {f : VuiField → F}
    (hnal : s (f .nalHrdParametersPresentFlag) ≠ 0 → (s (f (.nalHrdParameters .cpbCntMinus1))).toNat < 16)
    (hvcl : s (f .vclHrdParametersPresentFlag) ≠ 0 → (s (f (.vclHrdParameters .cpbCntMinus1))).toNat < 16) :
    (nalH264RbspVuiParameters f).count s ≤ 200 := by
  have hhrd : ∀ (x : F) (g : HrdField → F), (s x ≠ 0 → (s (g .cpbCntMinus1)).toNat < 16) →
      (Walk.when x (· ≠ 0) (nalH264RbspHrdParameters g)).count s ≤ 55 := by
    intro x g hg
    show (if decide (s x ≠ 0) = true then nalH264RbspHrdParameters g else .skip).count s ≤ 55
    split
    · exact hrd_count (hg (of_decide_eq_true ‹_›))
    · exact Nat.zero_le _
  have hn := hhrd _ (f ∘ VuiField.nalHrdParameters) hnal
  have hv := hhrd _ (f ∘ VuiField.vclHrdParameters) hvcl
  have haspect : (Walk.block [.bits 8 (f .aspectRatioIdc), .when (f .aspectRatioIdc) (· = 255)
      (.block [.bits 16 (f .sarWidth), .bits 16 (f .sarHeight)])]).count s ≤ 3 :=
    count_block_le [1, 2] (.cons le_rfl (.cons (count_when_le le_rfl) .nil))
  have hsignal : (Walk.block [.bits 3 (f .videoFormat), .bit (f .videoFullRangeFlag),
      .bit (f .colourDescriptionPresentFlag), .when (f .colourDescriptionPresentFlag) (· ≠ 0) (.block [
        .bits 8 (f .colourPrimaries), .bits 8 (f .transferCharacteristics),
        .bits 8 (f .matrixCoefficients)])]).count s ≤ 6 :=
    count_block_le [1, 1, 1, 3] (.cons le_rfl (.cons le_rfl (.cons le_rfl (.cons (count_when_le le_rfl) .nil))))
  refine (count_block_le [1, 3, 1, 1, 1, 6, 1, 2, 1, 3, 1, 55, 1, 55, 1, 1, 1, 7] ?_).trans (by decide)
  refine .cons le_rfl <| .cons (count_when_le haspect) <| .cons le_rfl <| .cons (count_when_le le_rfl) <|
    .cons le_rfl <| .cons (count_when_le hsignal) <| .cons le_rfl <| .cons (count_when_le le_rfl) <|
    .cons le_rfl <| .cons (count_when_le le_rfl) <| .cons le_rfl <| .cons hn <| .cons le_rfl <| .cons hv <|
    .cons ?_ <| .cons le_rfl <| .cons le_rfl <| .cons (count_when_le le_rfl) .nil
  show (Walk.when (f .vclHrdParametersPresentFlag)
    (fun vcl => decide (s (f .nalHrdParametersPresentFlag) ≠ 0 ∨ vcl ≠ 0)) (.bit (f .lowDelayHrdFlag))).count s ≤ 1
  exact count_when_le le_rfl

/-- The counts of a sequence parameter set fit the arrays of its struct. -/
structure SpsCountsFit (s : SpsField → Word) : Prop where
  offsets : s .picOrderCntType = 1 → (s SpsField.numRefFramesInPicOrderCntCycle).toNat ≤ 255
  nal : s .vuiParametersPresentFlag ≠ 0 → s (.vui .nalHrdParametersPresentFlag) ≠ 0 →
    (s (.vui (.nalHrdParameters .cpbCntMinus1))).toNat < 16
  vcl : s .vuiParametersPresentFlag ≠ 0 → s (.vui .vclHrdParametersPresentFlag) ≠ 0 →
    (s (.vui (.vclHrdParameters .cpbCntMinus1))).toNat < 16

/-- The counts of a picture parameter set fit the arrays of its struct. -/
structure PpsCountsFit (s : PpsField → Word) : Prop where
  groups : s .numSliceGroupsMinus1 ≠ 0 → s .sliceGroupMapType = 0 ∨ s .sliceGroupMapType = 2 →
    (s .numSliceGroupsMinus1).toNat ≤ 8
  ids : s .numSliceGroupsMinus1 ≠ 0 → s .sliceGroupMapType = 6 → (s PpsField.picSizeInMapUnitsMinus1).toNat ≤ 8

theorem sps_count {s : SpsField → Word} (h : SpsCountsFit s) : nalH264RbspSps.count s ≤ 2000 := by
  have hchroma : (Walk.block [.uev .chromaFormatIdc,
      .when .chromaFormatIdc (· = 3) (.bit .separateColourPlaneFlag), .uev .bitDepthLumaMinus8,
      .uev .bitDepthChromaMinus8, .bit .qpprimeYZeroTransformBypassFlag, .bit .seqScalingMatrixPresentFlag,
      .when .seqScalingMatrixPresentFlag (· ≠ 0) .fail]).count s ≤ 6 :=
    count_block_le [1, 1, 1, 1, 1, 1, 0] <| .cons le_rfl <| .cons (count_when_le le_rfl) <| .cons le_rfl <|
      .cons le_rfl <| .cons le_rfl <| .cons le_rfl <| .cons (count_when_le le_rfl) .nil
  have horder : (picOrderCntSwitch (s .picOrderCntType)).count s ≤ 259 := by
    unfold picOrderCntSwitch
    split
    · exact show 1 ≤ 259 by decide
    · split
      · have hn := h.offsets ‹_›
        have hloop : (Walk.upto (fun i => .sev (SpsField.offsetForRefFrame i)) 0
            (s SpsField.numRefFramesInPicOrderCntCycle).toNat).count s ≤
              1 * (s SpsField.numRefFramesInPicOrderCntCycle).toNat := count_upto_le (fun i => Nat.le_refl 1) 0 _
        exact (count_block_le [1, 1, 1, 1, 255] <| .cons le_rfl <| .cons le_rfl <| .cons le_rfl <| .cons le_rfl <|
          .cons (hloop.trans (by omega)) .nil).trans (by decide)
      · exact Nat.zero_le _
  have hvui : (Walk.when .vuiParametersPresentFlag (· ≠ 0) (nalH264RbspVuiParameters SpsField.vui)).count s ≤ 200 := by
    show (if decide (s .vuiParametersPresentFlag ≠ 0) = true then nalH264RbspVuiParameters SpsField.vui
      else .skip).count s ≤ 200
    split
    · exact vui_count (h.nal (of_decide_eq_true ‹_›)) (h.vcl (of_decide_eq_true ‹_›))
    · exact Nat.zero_le _
  refine (count_block_le [1, 1, 1, 1, 1, 1, 1, 1, 1, 1, 6, 1, 1, 259, 1, 1, 1, 1, 1, 1, 1, 1, 4, 1, 200] ?_).trans
    (by decide)
  exact .cons le_rfl <| .cons le_rfl <| .cons le_rfl <| .cons le_rfl <| .cons le_rfl <| .cons le_rfl <|
    .cons le_rfl <| .cons le_rfl <| .cons le_rfl <| .cons le_rfl <| .cons (count_when_le hchroma) <| .cons le_rfl <|
    .cons le_rfl <| .cons horder <| .cons le_rfl <| .cons le_rfl <| .cons le_rfl <| .cons le_rfl <|
    .cons le_rfl <| .cons (count_when_le le_rfl) <| .cons le_rfl <| .cons le_rfl <| .cons (count_when_le le_rfl) <|
    .cons le_rfl <| .cons hvui .nil

theorem pps_count {s : PpsField → Word} (h : PpsCountsFit s) : nalH264RbspPps.count s ≤ 2000 := by
  have hswitch : s .numSliceGroupsMinus1 ≠ 0 → (sliceGroupSwitch (s .sliceGroupMapType)).count s ≤ 16 := by
    intro hne
    unfold sliceGroupSwitch
    split
    · have hgroups := h.groups hne (.inl ‹_›)
      have hloop : (Walk.upto (fun i => .uev (PpsField.runLengthMinus1 i)) 0
          (s .numSliceGroupsMinus1).toNat).count s ≤ 1 * (s .numSliceGroupsMinus1).toNat :=
        count_upto_le (fun i => Nat.le_refl 1) 0 _
      exact hloop.trans (by omega)
    · split
      · have hgroups := h.groups hne (.inr ‹_›)
        have hloop : (Walk.upto (fun i => .block [.uev (PpsField.topLeft i), .uev (PpsField.bottomRight i)]) 0
            (s .numSliceGroupsMinus1).toNat).count s ≤ 2 * (s .numSliceGroupsMinus1).toNat :=
          count_upto_le (fun i => Nat.le_refl 2) 0 _
        exact hloop.trans (by omega)
      · split
        · exact show 2 ≤ 16 by decide
        · split
          · have hids := h.ids hne ‹_›
            have hloop : (Walk.upto (fun i => .bits (orderBase2 (s .numSliceGroupsMinus1 + 1)) (PpsField.sliceGroupId i))
                0 (s PpsField.picSizeInMapUnitsMinus1).toNat).count s ≤ 1 * (s PpsField.picSizeInMapUnitsMinus1).toNat :=
              count_upto_le (fun i => Nat.le_refl 1) 0 _
            exact (count_block_le [1, 8] <| .cons le_rfl <| .cons (hloop.trans (by omega)) .nil).trans (by decide)
          · exact Nat.zero_le _
  have hslices : (Walk.when .numSliceGroupsMinus1 (· ≠ 0) (.block [.uev .sliceGroupMapType,
      .test .sliceGroupMapType sliceGroupSwitch])).count s ≤ 17 := by
    show (if decide (s .numSliceGroupsMinus1 ≠ 0) = true then Walk.block [.uev .sliceGroupMapType,
      .test .sliceGroupMapType sliceGroupSwitch] else .skip).count s ≤ 17
    split
    · exact count_block_le [1, 16] <| .cons le_rfl <| .cons (hswitch (of_decide_eq_true ‹_›)) .nil
    · exact Nat.zero_le _
  refine (count_block_le [1, 1, 1, 1, 1, 17, 1, 1, 1, 1, 1, 1, 1, 1, 1, 1] ?_).trans (by decide)
  exact .cons le_rfl <| .cons le_rfl <| .cons le_rfl <| .cons le_rfl <| .cons le_rfl <| .cons hslices <|
    .cons le_rfl <| .cons le_rfl <| .cons le_rfl <| .cons le_rfl <| .cons le_rfl <| .cons le_rfl <|
    .cons le_rfl <| .cons le_rfl <| .cons le_rfl <| .cons le_rfl .nil

/-- **Parameter sets come back.**  A set that was written in `k` bytes is read from these as it was if and only if no
signed field that is coded is above zero. -/
theorem parameterSets_roundTrip_iff (sps sps0 : SpsField → Word) (h0 : HeaderField → Word)
    (pps pps0 : PpsField → Word) (data : ℕ → UInt8) (n k : ℕ) (st : Stream) :
    (nalH264RbspSps.InWidth sps → SpsCountsFit sps → nalH264WriteSps data n 0 sps = some (st, (k : ℤ)) →
      ((∃ sps', nalH264ReadSps h0 sps0 st.rbsp.data k 0 = some (sps', (k : ℤ)) ∧
          ∀ x ∈ nalH264RbspSps.coded sps, sps' x = sps x) ↔
        ∀ x ∈ nalH264RbspSps.coded sps, x.Signed → ¬0 < (sps x).toInt)) ∧
    (nalH264RbspPps.InWidth pps → PpsCountsFit pps → nalH264WritePps data n 0 pps = some (st, (k : ℤ)) →
      ((∃ pps', nalH264ReadPps pps0 st.rbsp.data k 0 = some (pps', (k : ℤ)) ∧
          ∀ x ∈ nalH264RbspPps.coded pps, pps' x = pps x) ↔
        ∀ x ∈ nalH264RbspPps.coded pps, x.Signed → ¬0 < (pps x).toInt)) := by
  constructor
  · intro hwidth hcounts hwrite
    have hunit := writeUnit_ok hwrite (sps_count hcounts)
    obtain ⟨h1, hheader, rfl⟩ := readHeader_eq (by decide) hunit h0
    obtain ⟨sps', hbody, hsps'⟩ := readBody_eq hunit sps_scoped hwidth sps0
    have hread : nalH264ReadSps h0 sps0 st.rbsp.data k 0 = some (sps', (k : ℤ)) := by
      unfold nalH264ReadSps
      rw [readStartCode_eq hunit.start hunit.startCode, hheader]
      exact hbody
    rw [← readBack_iff hsps' fun x hx => Walk.range_of_coded sps_scoped hwidth hx]
    refine ⟨fun ⟨sps'', hread', heq⟩ => ?_, fun heq => ⟨sps', hread, heq⟩⟩
    obtain ⟨rfl, -⟩ := Prod.mk.inj (Option.some.inj (hread.symm.trans hread'))
    exact heq
  · intro hwidth hcounts hwrite
    have hunit := writeUnit_ok hwrite (pps_count hcounts)
    obtain ⟨pps', hbody, hpps'⟩ := readBody_eq hunit pps_scoped hwidth pps0
    have hread : nalH264ReadPps pps0 st.rbsp.data k 0 = some (pps', (k : ℤ)) := by
      unfold nalH264ReadPps
      rw [readStartCode_eq hunit.start hunit.startCode]
      exact hbody
    rw [← readBack_iff hpps' fun x hx => Walk.range_of_coded pps_scoped hwidth hx]
    refine ⟨fun ⟨pps'', hread', heq⟩ => ?_, fun heq => ⟨pps', hread, heq⟩⟩
    obtain ⟨rfl, -⟩ := Prod.mk.inj (Option.some.inj (hread.symm.trans hread'))
    exact heq

instance (value : Word) : Decidable (SevRange value) := inferInstanceAs (Decidable (_ ∧ _))

/-- The widths can be checked. -/
def Walk.decideInWidth (s : F → Word) : (w : Walk F) → Decidable (w.InWidth s)
  | .skip | .fail | .endless => isTrue trivial
  | .seq first rest => @instDecidableAnd _ _ (first.decideInWidth s) (rest.decideInWidth s)
  | .bit x => inferInstanceAs (Decidable ((s x).toNat < 2))
  | .bits n x => inferInstanceAs (Decidable ((s x).toNat < 2 ^ n))
  | .uev x => inferInstanceAs (Decidable ((s x).toNat ≤ 2 ^ 32 - 2))
  | .sev x => inferInstanceAs (Decidable (SevRange (s x)))
  | .test x k => (k (s x)).decideInWidth s
  | .loop x k => (k (s x)).decideInWidth s

instance (s : F → Word) (w : Walk F) : Decidable (w.InWidth s) := w.decideInWidth s

/-- A picture parameter set with a quantisation parameter. -/
def qpPps (qp : Word) : PpsField → Word
  | .picInitQpMinus26 => qp
  | _ => 0

theorem qpPps_countsFit (qp : Word) : PpsCountsFit (qpPps qp) := by
  exact ⟨fun h => absurd rfl h, fun h => absurd rfl h⟩

/-- A sequence parameter set with two reference frames in the cycle, usability information and two buffers of a
hypothetical decoder. -/
def hrdSps : SpsField → Word
  | .profileIdc => 66
  | .levelIdc => 30
  | .picOrderCntType => 1
  | .offsetForNonRefPic => -3
  | .numRefFramesInPicOrderCntCycle => 2
  | .offsetForRefFrame i => -BitVec.ofNat 32 i
  | .picWidthInMbsMinus1 => 44
  | .picHeightInMapUnitsMinus1 => 35
  | .frameMbsOnlyFlag => 1
  | .vuiParametersPresentFlag => 1
  | .vui .timingInfoPresentFlag => 1
  | .vui .numUnitsInTick => 1
  | .vui .timeScale => 50
  | .vui .nalHrdParametersPresentFlag => 1
  | .vui (.nalHrdParameters .cpbCntMinus1) => 1
  | .vui (.nalHrdParameters (.bitRateValueMinus1 _)) => 9999
  | _ => 0

theorem hrdSps_countsFit : SpsCountsFit hrdSps :=
  ⟨fun _ => by decide, fun _ _ => by decide, fun _ h => absurd rfl h⟩

theorem parameterSets_roundTrip_minus1 :
    (∃ (sps' : SpsField → Word) (st : Stream), nalH264WriteSps (fun _ => 0) 64 0 hrdSps = some (st, ((38 : ℕ) : ℤ)) ∧
      nalH264ReadSps (fun _ => 5) (fun _ => 5) st.rbsp.data 38 0 = some (sps', ((38 : ℕ) : ℤ)) ∧
      ∀ x ∈ nalH264RbspSps.coded hrdSps, sps' x = hrdSps x) ∧
    ∃ (pps' : PpsField → Word) (st : Stream),
      nalH264WritePps (fun _ => 0) 64 0 (qpPps (-1)) = some (st, ((8 : ℕ) : ℤ)) ∧
      nalH264ReadPps (fun _ => 5) st.rbsp.data 8 0 = some (pps', ((8 : ℕ) : ℤ)) ∧
      ∀ x ∈ nalH264RbspPps.coded (qpPps (-1)), pps' x = qpPps (-1) x := by
  have hsps : (nalH264WriteSps (fun _ => 0) 64 0 hrdSps).map Prod.snd = some ((38 : ℕ) : ℤ) := by decide +kernel
  have hpps : (nalH264WritePps (fun _ => 0) 64 0 (qpPps (-1))).map Prod.snd = some ((8 : ℕ) : ℤ) := by decide +kernel
  obtain ⟨⟨st, k⟩, hwrite, rfl⟩ := Option.map_eq_some_iff.mp hsps
  obtain ⟨⟨st', k'⟩, hwrite', rfl⟩ := Option.map_eq_some_iff.mp hpps
  obtain ⟨sps', hread, heq⟩ := ((parameterSets_roundTrip_iff hrdSps (fun _ => 5) (fun _ => 5) (qpPps (-1))
    (fun _ => 5) _ _ 38 st).1 (by decide +kernel) hrdSps_countsFit hwrite).mpr (by decide +kernel)
  obtain ⟨pps', hread', heq'⟩ := ((parameterSets_roundTrip_iff hrdSps (fun _ => 5) (fun _ => 5) (qpPps (-1))
    (fun _ => 5) _ _ 8 st').2 (by decide +kernel) (qpPps_countsFit (-1)) hwrite').mpr (by decide +kernel)
  exact ⟨⟨sps', st, hwrite, hread, heq⟩, pps', st', hwrite', hread', heq'⟩

/-- A quantisation parameter of 1 comes back as 2. -/
theorem parameterSets_roundTrip_plus1 : ¬∀ (pps pps0 : PpsField → Word) (data : ℕ → UInt8) (n k : ℕ) (st : Stream),
    nalH264RbspPps.InWidth pps → PpsCountsFit pps → nalH264WritePps data n 0 pps = some (st, (k : ℤ)) →
    ∃ pps', nalH264ReadPps pps0 st.rbsp.data k 0 = some (pps', (k : ℤ)) ∧
      ∀ x ∈ nalH264RbspPps.coded pps, pps' x = pps x := by
  intro hall
  have hres : (nalH264WritePps (fun _ => 0) 64 0 (qpPps 1)).map Prod.snd = some ((8 : ℕ) : ℤ) := by decide +kernel
  have hback : ((nalH264WritePps (fun _ => 0) 64 0 (qpPps 1)).bind fun p =>
      (nalH264ReadPps (fun _ => 0) p.1.rbsp.data 8 0).map fun q => q.1 .picInitQpMinus26) = some 2 := by decide +kernel
  obtain ⟨⟨st, k⟩, hwrite, rfl⟩ := Option.map_eq_some_iff.mp hres
  obtain ⟨pps', hread, heq⟩ := hall (qpPps 1) (fun _ => 0) _ _ 8 st (by decide +kernel)
    (qpPps_countsFit 1) hwrite
  have hqp := heq .picInitQpMinus26 (by decide)
  rw [hwrite, Option.bind_some, hread] at hback
  exact absurd ((Option.some.inj hback).symm.trans hqp) (by decide)

end Allegro
end TbsMedia
