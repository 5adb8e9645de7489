import TbsMedia.Lib.Octets
import Mathlib

/-!
# The physical address in an EDID

The HDMI vendor block of an EDID holds the source physical address.  It is found by walking the data blocks of the
CEA-861 extension blocks, whose lengths come from the EDID itself.

* `cecGetEdidSpaLocation`: `cec_get_edid_spa_location`; an access behind the EDID gives no result.
* `v4l2GetEdidPhysAddr`, `v4l2SetEdidPhysAddr`: reading the address, and replacing it together with the checksum.
* `updatesPhysAddr_iff`: the new address is read where the old one was.  But the data blocks may reach as far as the
  checksum, and then the low byte of an address that is the last of them is the checksum byte itself.
-/

namespace TbsMedia
namespace V4l2

open Lib.Octets

def CEC_PHYS_ADDR_INVALID : UInt16 := 0xffff

/-! ## The search -/

/-- The bytes from `i` on are those of the list; the first one that is not ends the comparison. -/
def matchesBytes (edid : List UInt8) : ℕ → List UInt8 → Option Bool
  | _, [] => some true
  | i, b :: bs => do
    let x ← edid[i]?
    if x = b then matchesBytes edid (i + 1) bs else some false

/-- The test of a data block: a vendor block of HDMI with an address, before `last`. -/
def isHdmiBlock (edid : List UInt8) (last i : ℕ) (head : UInt8) : Option Bool :=
  let len := (head &&& 0x1f).toNat
  if head >>> 5 = 3 ∧ 5 ≤ len ∧ i + len ≤ last then matchesBytes edid (i + 1) [0x03, 0x0c, 0x00]
  else some false

/-- The loop over the data blocks, which stops at `last`. -/
def walkDataBlocks (edid : List UInt8) (last : ℕ) : ℕ → ℕ → Option ℕ
  | 0, _ => none
  | fuel + 1, i => do
    let head ← edid[i]?
    let found ← isHdmiBlock edid last i head
    let next := i + ((head &&& 0x1f).toNat + 1)
    if found then some (i + 4)
    else if next < last then walkDataBlocks edid last fuel next
    else some 0

/-- One extension block. -/
def searchBlock (edid : List UInt8) (offset : ℕ) : Option ℕ := do
  let id ← edid[offset]?
  if id ≠ 0x02 then some 0
  else
    let revision ← edid[offset + 1]?
    if revision ≠ 0x03 then some 0
    else
      let head ← edid[offset + 2]?
      let d := (head &&& 0x7f).toNat
      if d ≤ 4 then some 0
      else walkDataBlocks edid (offset + d) d (offset + 4)

/-- The loop over the extension blocks. -/
def searchBlocks (edid : List UInt8) : ℕ → ℕ → Option ℕ
  | 0, _ => some 0
  | left + 1, block => do
    let loc ← searchBlock edid (block * 128)
    if loc ≠ 0 then some loc else searchBlocks edid left (block + 1)

/-- `cec_get_edid_spa_location`.  The size is a multiple of 128, so no index reaches `2 ^ 32`. -/
def cecGetEdidSpaLocation (edid : List UInt8) : Option ℕ :=
  let blocks := edid.length / 128
  if blocks < 2 ∨ edid.length % 128 ≠ 0 then some 0
  else do
    let extensions ← edid[0x7e]?
    let blocks := if extensions.toNat + 1 < blocks then extensions.toNat + 1 else blocks
    searchBlocks edid (blocks - 1) 1

/-! ## The address -/

/-- `v4l2_get_edid_phys_addr`: the address and its location. -/
def v4l2GetEdidPhysAddr (edid : List UInt8) : Option (UInt16 × ℕ) := do
  let loc ← cecGetEdidSpaLocation edid
  if loc = 0 then some (CEC_PHYS_ADDR_INVALID, loc)
  else
    let hi ← edid[loc]?
    let lo ← edid[loc + 1]?
    some (be16 hi lo, loc)

/-- A store into the EDID. -/
def putByte (edid : List UInt8) (i : ℕ) (b : UInt8) : Option (List UInt8) :=
  if i < edid.length then some (edid.set i b) else none

/-- The sum of `n` bytes from `i` on. -/
def sumBytes (edid : List UInt8) : ℕ → ℕ → Option UInt8
  | 0, _ => some 0
  | n + 1, i => do
    let b ← edid[i]?
    let sum ← sumBytes edid n (i + 1)
    some (b + sum)

/-- `v4l2_set_edid_phys_addr`. -/
def v4l2SetEdidPhysAddr (edid : List UInt8) (physAddr : UInt16) : Option (List UInt8) := do
  let loc ← cecGetEdidSpaLocation edid
  if loc = 0 then some edid
  else
    let edid ← putByte edid loc (hi8 physAddr)
    let edid ← putByte edid (loc + 1) (lo8 physAddr)
    let first := loc - loc % 128
    let sum ← sumBytes edid 127 first
    putByte edid (first + 127) (0 - sum)

/-! ## What an update is to do -/

/-- The 128 bytes of the block of a location. -/
def blockOf (edid : List UInt8) (loc : ℕ) : List UInt8 :=
  (edid.drop (loc / 128 * 128)).take 128

/-- The new address is read at the location of the old one, the bytes of its block sum up to zero, and no byte but
the address and the checksum of its block has changed. -/
def UpdatesPhysAddr (edid : List UInt8) (loc : ℕ) (physAddr : UInt16) : Prop :=
  ∃ edid', v4l2SetEdidPhysAddr edid physAddr = some edid' ∧ edid'.length = edid.length ∧
    v4l2GetEdidPhysAddr edid' = some (physAddr, loc) ∧ (blockOf edid' loc).sum = 0 ∧
    ∀ k, k ≠ loc → k ≠ loc + 1 → k ≠ loc / 128 * 128 + 127 → edid'[k]? = edid[k]?

/-- The low byte of the address does not lie on the checksum, or is the checksum. -/
def LowByteFits (edid : List UInt8) (loc : ℕ) (physAddr : UInt16) : Prop :=
  loc % 128 = 126 → ((blockOf edid loc).take 126).sum + hi8 physAddr + lo8 physAddr = 0

/-! ## What the search reads -/

/-- The search has read nothing from `last` on, and nothing from the location on that it found. -/
def Agree (edid edid' : List UInt8) (last loc : ℕ) : Prop :=
  ∀ k, k < last → (loc ≠ 0 → k < loc) → edid'[k]? = edid[k]?

theorem matchesBytes_spec {edid : List UInt8} {i : ℕ} {bs : List UInt8} (h : i + bs.length ≤ edid.length) :
    ∃ r, matchesBytes edid i bs = some r ∧ ∀ edid' : List UInt8,
      (∀ k, k < i + bs.length → edid'[k]? = edid[k]?) → matchesBytes edid' i bs = some r := by
  induction bs generalizing i with
  | nil => exact ⟨true, rfl, fun _ _ => rfl⟩
  | cons b bs ih =>
    rw [List.length_cons] at h ⊢
    obtain ⟨r, hr, hsame⟩ := @ih (i + 1) (by omega)
    have hread : edid[i]? = some edid[i] := List.getElem?_eq_getElem (by omega)
    by_cases hb : edid[i] = b
    · refine ⟨r, ?_, fun edid' hagree => ?_⟩
      · rw [matchesBytes, hread, Option.bind_eq_bind, Option.bind_some, if_pos hb, hr]
      · rw [matchesBytes, hagree i (by omega), hread, Option.bind_eq_bind, Option.bind_some, if_pos hb]
        exact hsame edid' fun k hk => hagree k (by omega)
    · refine ⟨false, ?_, fun edid' hagree => ?_⟩
      · rw [matchesBytes, hread, Option.bind_eq_bind, Option.bind_some, if_neg hb]
      · rw [matchesBytes, hagree i (by omega), hread, Option.bind_eq_bind, Option.bind_some, if_neg hb]

/-- The test of a data block stays inside it, and inside the data blocks. -/
theorem isHdmiBlock_spec {edid : List UInt8} {last : ℕ} (hlast : last ≤ edid.length) (i : ℕ) (head : UInt8) :
    ∃ r, isHdmiBlock edid last i head = some r ∧ (r = true → i + 5 ≤ last) ∧ ∀ edid' : List UInt8,
      (∀ k, k < last → k < i + 4 → k < i + (head &&& 0x1f).toNat → edid'[k]? = edid[k]?) →
        isHdmiBlock edid' last i head = some r := by
  unfold isHdmiBlock
  dsimp only
  by_cases hvendor : head >>> 5 = 3 ∧ 5 ≤ (head &&& 0x1f).toNat ∧ i + (head &&& 0x1f).toNat ≤ last
  · obtain ⟨r, hr, hsame⟩ := @matchesBytes_spec edid (i + 1) [0x03, 0x0c, 0x00]
      (show i + 1 + 3 ≤ edid.length by omega)
    refine ⟨r, ?_, fun _ => by omega, fun edid' hagree => ?_⟩
    · rw [if_pos hvendor, hr]
    · rw [if_pos hvendor]
      refine hsame edid' fun k hk => ?_
      replace hk : k < i + 1 + 3 := hk
      exact hagree k (by omega) (by omega) (by omega)
  · exact ⟨false, if_neg hvendor, fun h => absurd h Bool.false_ne_true, fun _ _ => if_neg hvendor⟩

/-- The walk over the data blocks ends, stays before its limit, and finds an address before it. -/
theorem walkDataBlocks_spec {edid : List UInt8} {last : ℕ} (hlast : last ≤ edid.length) (fuel i : ℕ)
    (hi : i < last) (hfuel : last - i ≤ fuel) :
    ∃ r, walkDataBlocks edid last fuel i = some r ∧ (r ≠ 0 → i + 4 ≤ r ∧ r + 1 ≤ last) ∧
      ∀ edid' : List UInt8, Agree edid edid' last r → walkDataBlocks edid' last fuel i = some r := by
  induction fuel generalizing i with
  | zero => omega
  | succ fuel ih =>
    have hread : edid[i]? = some edid[i] := List.getElem?_eq_getElem (by omega)
    obtain ⟨found, hfound, hin, hsame⟩ := isHdmiBlock_spec hlast i edid[i]
    have hstep : ∀ edid' : List UInt8, edid'[i]? = edid[i]? →
        isHdmiBlock edid' last i edid[i] = some found →
        walkDataBlocks edid' last (fuel + 1) i =
          if found then some (i + 4)
          else if i + ((edid[i] &&& 0x1f).toNat + 1) < last then
            walkDataBlocks edid' last fuel (i + ((edid[i] &&& 0x1f).toNat + 1))
          else some 0 := by
      intro edid' hi' hfound'
      rw [walkDataBlocks, hi', hread]
      show (isHdmiBlock edid' last i edid[i] >>= _) = _
      rw [hfound']
      rfl
    rcases found with _ | _
    · by_cases hnext : i + ((edid[i] &&& 0x1f).toNat + 1) < last
      · obtain ⟨r, hr, hbounds, hsame'⟩ := ih _ hnext (by omega)
        refine ⟨r, ?_, fun hr0 => ?_, fun edid' hagree => ?_⟩
        · rw [hstep edid rfl hfound, if_neg Bool.false_ne_true, if_pos hnext, hr]
        · have := hbounds hr0
          omega
        · have hbehind : r ≠ 0 → i + ((edid[i] &&& 0x1f).toNat + 1) + 4 ≤ r := fun hr0 => (hbounds hr0).1
          rw [hstep edid' (hagree i hi fun hr0 => by have := hbehind hr0; omega)
            (hsame edid' fun k hk _ hk' => hagree k hk fun hr0 => by have := hbehind hr0; omega),
            if_neg Bool.false_ne_true, if_pos hnext]
          exact hsame' edid' hagree
      · refine ⟨0, ?_, fun h => absurd rfl h, fun edid' hagree => ?_⟩
        · rw [hstep edid rfl hfound, if_neg Bool.false_ne_true, if_neg hnext]
        · rw [hstep edid' (hagree i hi fun h => absurd rfl h)
            (hsame edid' fun k hk _ _ => hagree k hk fun h => absurd rfl h), if_neg Bool.false_ne_true, if_neg hnext]
    · refine ⟨i + 4, ?_, fun _ => ⟨Nat.le_refl _, hin rfl⟩, fun edid' hagree => ?_⟩
      · rw [hstep edid rfl hfound, if_pos rfl]
      · rw [hstep edid' (hagree i hi fun _ => by omega)
          (hsame edid' fun k hk hk' _ => hagree k hk fun _ => hk'), if_pos rfl]

theorem toNat_land_127 (head : UInt8) : (head &&& 0x7f).toNat < 128 := by
  rw [toNat_land 7 rfl]
  exact Nat.mod_lt _ (by decide)

/-- The search of a block stays inside it, and finds an address that may reach its last byte. -/
theorem searchBlock_spec {edid : List UInt8} {offset : ℕ} (h : offset + 128 ≤ edid.length) :
    ∃ r, searchBlock edid offset = some r ∧ (r ≠ 0 → offset + 8 ≤ r ∧ r + 2 ≤ offset + 128) ∧
      ∀ edid' : List UInt8, Agree edid edid' (offset + 128) r → searchBlock edid' offset = some r := by
  have hread : ∀ k, k < 128 → ∃ b, edid[offset + k]? = some b := fun k hk =>
    ⟨_, List.getElem?_eq_getElem (by omega)⟩
  obtain ⟨id, hid⟩ := hread 0 (by decide)
  obtain ⟨revision, hrevision⟩ := hread 1 (by decide)
  obtain ⟨head, hhead⟩ := hread 2 (by decide)
  have hunfold : ∀ edid' : List UInt8, (∀ k, k < 3 → edid'[offset + k]? = edid[offset + k]?) →
      searchBlock edid' offset =
        if id ≠ 0x02 ∨ revision ≠ 0x03 ∨ (head &&& 0x7f).toNat ≤ 4 then some 0
        else walkDataBlocks edid' (offset + (head &&& 0x7f).toNat) (head &&& 0x7f).toNat (offset + 4) := by
    intro edid' hsame
    rw [searchBlock, ← Nat.add_zero offset, hsame 0 (by decide), Nat.add_zero, hsame 1 (by decide),
      hsame 2 (by decide), hrevision, hhead]
    rw [Nat.add_zero] at hid
    rw [hid]
    by_cases hid2 : id = 0x02
    · by_cases hrev3 : revision = 0x03
      · simp [hid2, hrev3]
      · simp [hid2, hrev3]
    · simp [hid2]
  by_cases hskip : id ≠ 0x02 ∨ revision ≠ 0x03 ∨ (head &&& 0x7f).toNat ≤ 4
  · refine ⟨0, ?_, fun h => absurd rfl h, fun edid' hagree => ?_⟩
    · rw [hunfold edid fun _ _ => rfl, if_pos hskip]
    · rw [hunfold edid' fun k hk => hagree _ (by omega) fun h => absurd rfl h, if_pos hskip]
  · have hd := toNat_land_127 head
    rw [not_or, not_or, not_le] at hskip
    obtain ⟨r, hr, hbounds, hsame⟩ := @walkDataBlocks_spec edid (offset + (head &&& 0x7f).toNat) (by omega)
      (head &&& 0x7f).toNat (offset + 4) (by omega) (by omega)
    have hskip' : ¬ (id ≠ 0x02 ∨ revision ≠ 0x03 ∨ (head &&& 0x7f).toNat ≤ 4) := by
      rw [not_or, not_or, not_le]
      exact hskip
    refine ⟨r, ?_, fun hr0 => ?_, fun edid' hagree => ?_⟩
    · rw [hunfold edid fun _ _ => rfl, if_neg hskip', hr]
    · have := hbounds hr0
      omega
    · have hbehind : r ≠ 0 → offset + 8 ≤ r := fun hr0 => by
        have := hbounds hr0
        omega
      rw [hunfold edid' fun k hk => hagree _ (by omega) fun hr0 => by have := hbehind hr0; omega, if_neg hskip']
      exact hsame edid' fun k hk => hagree k (by omega)

/-- The search of the blocks finds an address inside one of them. -/
theorem searchBlocks_spec {edid : List UInt8} (left block : ℕ) (h : (block + left) * 128 ≤ edid.length) :
    ∃ r, searchBlocks edid left block = some r ∧
      (r ≠ 0 → ∃ b, block ≤ b ∧ b * 128 + 8 ≤ r ∧ r + 2 ≤ b * 128 + 128 ∧ b * 128 + 128 ≤ edid.length) ∧
      ∀ edid' : List UInt8, Agree edid edid' edid.length r → searchBlocks edid' left block = some r := by
  induction left generalizing block with
  | zero => exact ⟨0, rfl, fun h => absurd rfl h, fun _ _ => rfl⟩
  | succ left ih =>
    have hfits : block * 128 + 128 ≤ edid.length := by omega
    obtain ⟨loc, hloc, hbounds, hsame⟩ := searchBlock_spec hfits
    by_cases hfound : loc = 0
    · obtain ⟨r, hr, hbounds', hsame'⟩ := ih (block + 1) (by omega)
      refine ⟨r, ?_, fun hr0 => ?_, fun edid' hagree => ?_⟩
      · rw [searchBlocks, hloc, Option.bind_eq_bind, Option.bind_some, if_neg (not_not.mpr hfound), hr]
      · obtain ⟨b, hb, hrest⟩ := hbounds' hr0
        exact ⟨b, by omega, hrest⟩
      · have hbehind : r ≠ 0 → block * 128 + 128 ≤ r := fun hr0 => by
          obtain ⟨b, hb, hrest⟩ := hbounds' hr0
          omega
        rw [searchBlocks, hsame edid' fun k hk _ => hagree k (by omega) fun hr0 => by
            have := hbehind hr0
            omega,
          Option.bind_eq_bind, Option.bind_some, if_neg (not_not.mpr hfound)]
        exact hsame' edid' hagree
    · refine ⟨loc, ?_, fun hr0 => ⟨block, Nat.le_refl _, (hbounds hr0).1, (hbounds hr0).2, hfits⟩,
        fun edid' hagree => ?_⟩
      · rw [searchBlocks, hloc, Option.bind_eq_bind, Option.bind_some, if_pos hfound]
      · rw [searchBlocks, hsame edid' fun k hk hk' => hagree k (by omega) hk', Option.bind_eq_bind,
          Option.bind_some, if_pos hfound]

/-- The search reads bytes of the EDID only, and finds an address inside an extension block.  It finds it again in
an EDID that has the same bytes before it. -/
theorem cecGetEdidSpaLocation_spec (edid : List UInt8) :
    ∃ r, cecGetEdidSpaLocation edid = some r ∧
      (r ≠ 0 → ∃ b, b * 128 + 8 ≤ r ∧ r + 2 ≤ b * 128 + 128 ∧ b * 128 + 128 ≤ edid.length) ∧
      ∀ edid' : List UInt8, edid'.length = edid.length → Agree edid edid' edid.length r →
        cecGetEdidSpaLocation edid' = some r := by
  by_cases hsize : edid.length / 128 < 2 ∨ edid.length % 128 ≠ 0
  · refine ⟨0, if_pos hsize, fun h => absurd rfl h, fun edid' hlen _ => ?_⟩
    rw [← hlen] at hsize
    exact if_pos hsize
  · obtain ⟨extensions, hread⟩ : ∃ b, edid[0x7e]? = some b := ⟨_, List.getElem?_eq_getElem (by omega)⟩
    generalize hblocks :
      (if extensions.toNat + 1 < edid.length / 128 then extensions.toNat + 1 else edid.length / 128) = blocks
    have hle : 1 ≤ blocks ∧ blocks ≤ edid.length / 128 := by
      rw [← hblocks]
      split_ifs <;> omega
    obtain ⟨r, hr, hbounds, hsame⟩ := @searchBlocks_spec edid (blocks - 1) 1 (by omega)
    refine ⟨r, ?_, fun hr0 => ?_, fun edid' hlen hagree => ?_⟩
    · unfold cecGetEdidSpaLocation
      dsimp only
      rw [if_neg hsize, hread, Option.bind_eq_bind, Option.bind_some, hblocks, hr]
    · obtain ⟨b, _, hrest⟩ := hbounds hr0
      exact ⟨b, hrest⟩
    · have hbehind : r ≠ 0 → 128 ≤ r := fun hr0 => by
        obtain ⟨b, hb, hrest⟩ := hbounds hr0
        omega
      unfold cecGetEdidSpaLocation
      dsimp only
      rw [hlen, if_neg hsize, hagree 0x7e (by omega) fun hr0 => by have := hbehind hr0; omega, hread,
        Option.bind_eq_bind, Option.bind_some, hblocks]
      exact hsame edid' hagree

/-! ## The update -/

/-- The EDID with the two bytes of the address stored. -/
def storeAddr (edid : List UInt8) (loc : ℕ) (physAddr : UInt16) : List UInt8 :=
  (edid.set loc (hi8 physAddr)).set (loc + 1) (lo8 physAddr)

/-- The sum over a block without its last byte. -/
def sumBefore (edid : List UInt8) (first : ℕ) : UInt8 :=
  ((edid.drop first).take 127).sum

/-- The EDID with its new checksum. -/
def storeChecksum (edid : List UInt8) (first : ℕ) : List UInt8 :=
  edid.set (first + 127) (0 - sumBefore edid first)

theorem sumBytes_eq {edid : List UInt8} {n i : ℕ} (h : i + n ≤ edid.length) :
    sumBytes edid n i = some ((edid.drop i).take n).sum := by
  induction n generalizing i with
  | zero => rfl
  | succ n ih =>
    rw [sumBytes, List.getElem?_eq_getElem (show i < edid.length by omega), @ih (i + 1) (by omega),
      List.drop_eq_getElem_cons (show i < edid.length by omega), List.take_succ_cons, List.sum_cons]
    rfl

theorem getElem?_storeAddr {edid : List UInt8} {loc : ℕ} (h : loc + 1 < edid.length) (physAddr : UInt16) (k : ℕ) :
    (storeAddr edid loc physAddr)[k]? =
      if k = loc then some (hi8 physAddr) else if k = loc + 1 then some (lo8 physAddr) else edid[k]? := by
  rw [storeAddr]
  by_cases hlo : k = loc + 1
  · rw [hlo, List.getElem?_set_self (by rw [List.length_set]; exact h), if_neg (by omega), if_pos rfl]
  · rw [List.getElem?_set_ne (Ne.symm hlo), if_neg hlo]
    by_cases hhi : k = loc
    · rw [hhi, List.getElem?_set_self (by omega), if_pos rfl]
    · rw [List.getElem?_set_ne (Ne.symm hhi), if_neg hhi]

theorem getElem?_storeChecksum {edid : List UInt8} {first : ℕ} (h : first + 128 ≤ edid.length) (k : ℕ) :
    (storeChecksum edid first)[k]? = if k = first + 127 then some (0 - sumBefore edid first) else edid[k]? := by
  rw [storeChecksum]
  by_cases hk : k = first + 127
  · rw [hk, List.getElem?_set_self (by omega), if_pos rfl]
  · rw [List.getElem?_set_ne (Ne.symm hk), if_neg hk]

/-- The checksum of a block whose last two bytes are to be the address. -/
theorem sumBefore_storeAddr {edid : List UInt8} {first : ℕ} (h : first + 128 ≤ edid.length) (physAddr : UInt16) :
    sumBefore (storeAddr edid (first + 126) physAddr) first =
      ((edid.drop first).take 126).sum + hi8 physAddr := by
  have hlast : ((storeAddr edid (first + 126) physAddr).drop first)[126]? = some (hi8 physAddr) := by
    rw [List.getElem?_drop, getElem?_storeAddr (by omega), if_pos rfl]
  have hbefore : ((storeAddr edid (first + 126) physAddr).drop first).take 126 = (edid.drop first).take 126 := by
    rw [storeAddr, List.drop_set, if_neg (by omega), List.take_set_of_le (by omega), List.drop_set,
      if_neg (by omega), List.take_set_of_le (by omega)]
  rw [sumBefore, List.take_add_one, hlast, hbefore, Option.toList_some, List.sum_append, List.sum_singleton]

/-- With the checksum, the bytes of a block sum up to zero. -/
theorem sum_storeChecksum {edid : List UInt8} {first : ℕ} (h : first + 128 ≤ edid.length) :
    (((storeChecksum edid first).drop first).take 128).sum = 0 := by
  have hlast : ((storeChecksum edid first).drop first)[127]? = some (0 - sumBefore edid first) := by
    rw [List.getElem?_drop, storeChecksum, List.getElem?_set_self (by omega)]
  have hbefore : ((storeChecksum edid first).drop first).take 127 = (edid.drop first).take 127 := by
    rw [storeChecksum, List.drop_set, if_neg (by omega), Nat.add_sub_cancel_left, List.take_set_of_le (Nat.le_refl _)]
  rw [List.take_add_one, hlast, hbefore, Option.toList_some, List.sum_append, List.sum_singleton]
  show sumBefore edid first + (0 - sumBefore edid first) = 0
  rw [UInt8.zero_sub, UInt8.add_right_neg]

/-- The address and the checksum are stored in the block in which the address is found. -/
theorem v4l2SetEdidPhysAddr_eq {edid : List UInt8} {loc b : ℕ} (hloc : cecGetEdidSpaLocation edid = some loc)
    (h0 : loc ≠ 0) (hge : b * 128 ≤ loc) (hle : loc + 2 ≤ b * 128 + 128) (hlen : b * 128 + 128 ≤ edid.length)
    (physAddr : UInt16) :
    v4l2SetEdidPhysAddr edid physAddr = some (storeChecksum (storeAddr edid loc physAddr) (b * 128)) := by
  have hfirst : loc - loc % 128 = b * 128 := by omega
  have hlength : (storeAddr edid loc physAddr).length = edid.length := by
    rw [storeAddr, List.length_set, List.length_set]
  have hhi : putByte edid loc (hi8 physAddr) = some (edid.set loc (hi8 physAddr)) := if_pos (by omega)
  have hlo : putByte (edid.set loc (hi8 physAddr)) (loc + 1) (lo8 physAddr) = some (storeAddr edid loc physAddr) :=
    if_pos (by rw [List.length_set]; omega)
  have hsum : sumBytes (storeAddr edid loc physAddr) 127 (b * 128) =
      some (sumBefore (storeAddr edid loc physAddr) (b * 128)) := sumBytes_eq (by omega)
  have hput : putByte (storeAddr edid loc physAddr) (b * 128 + 127)
      (0 - sumBefore (storeAddr edid loc physAddr) (b * 128)) =
        some (storeChecksum (storeAddr edid loc physAddr) (b * 128)) := if_pos (by omega)
  rw [v4l2SetEdidPhysAddr, hloc, Option.bind_eq_bind, Option.bind_some, if_neg h0, hfirst, hhi]
  simp only [Option.bind_eq_bind, Option.bind_some, hlo, hsum, hput]

/-- The low octet is what decides between numbers with the same high one. -/
theorem be16_eq_iff {w : UInt16} {lo : UInt8} : be16 (hi8 w) lo = w ↔ lo = lo8 w := by
  constructor
  · intro h
    have hlt := lo.toNat_lt
    have hlo := toNat_lo8 w
    have hnat := toNat_be16 (hi8 w) lo
    rw [h] at hnat
    apply UInt8.toNat_inj.mp
    omega
  · rintro rfl
    exact be16_hi8_lo8 w

/-- What is read after an update: the high byte of the address, and the low one unless it is the checksum. -/
theorem v4l2GetEdidPhysAddr_update {edid : List UInt8} {loc b : ℕ} (hloc : cecGetEdidSpaLocation edid = some loc)
    (h0 : loc ≠ 0) (hle : loc + 2 ≤ b * 128 + 128) (hlen : b * 128 + 128 ≤ edid.length) (physAddr : UInt16) :
    v4l2GetEdidPhysAddr (storeChecksum (storeAddr edid loc physAddr) (b * 128)) =
      some (be16 (hi8 physAddr) (if loc + 1 = b * 128 + 127 then 0 - sumBefore (storeAddr edid loc physAddr) (b * 128)
        else lo8 physAddr), loc) := by
  have hlength : (storeAddr edid loc physAddr).length = edid.length := by
    rw [storeAddr, List.length_set, List.length_set]
  have hread : ∀ k, (storeChecksum (storeAddr edid loc physAddr) (b * 128))[k]? =
      if k = b * 128 + 127 then some (0 - sumBefore (storeAddr edid loc physAddr) (b * 128))
      else if k = loc then some (hi8 physAddr) else if k = loc + 1 then some (lo8 physAddr) else edid[k]? := by
    intro k
    rw [getElem?_storeChecksum (by omega), getElem?_storeAddr (by omega)]
  obtain ⟨r, hr, -, hagain⟩ := cecGetEdidSpaLocation_spec edid
  obtain rfl := Option.some.inj (hr.symm.trans hloc)
  have hfound : cecGetEdidSpaLocation (storeChecksum (storeAddr edid r physAddr) (b * 128)) = some r := by
    refine hagain _ (by rw [storeChecksum, List.length_set, hlength]) fun k _ hk => ?_
    have hkr := hk h0
    rw [hread, if_neg (by omega), if_neg (by omega), if_neg (by omega)]
  have hhi := hread r
  rw [if_neg (by omega), if_pos rfl] at hhi
  have hlo := hread (r + 1)
  rw [if_neg (show r + 1 ≠ r by omega), if_pos rfl, ← apply_ite some] at hlo
  rw [v4l2GetEdidPhysAddr, hfound, Option.bind_eq_bind, Option.bind_some, if_neg h0, hhi, hlo]
  rfl

/-- **The address is replaced at its place and its block gets a new checksum**, for every EDID in which an address is
found, and the search reads nothing behind the EDID.  The address that is read is the new one unless its low byte is
the checksum of its block and differs from the checksum that is stored. -/
theorem updatesPhysAddr_iff (edid : List UInt8) (physAddr : UInt16) :
    ∃ loc, cecGetEdidSpaLocation edid = some loc ∧
      (loc ≠ 0 → (UpdatesPhysAddr edid loc physAddr ↔ LowByteFits edid loc physAddr)) := by
  obtain ⟨loc, hloc, hbounds, hagain⟩ := cecGetEdidSpaLocation_spec edid
  refine ⟨loc, hloc, fun h0 => ?_⟩
  obtain ⟨b, hge, hle, hlen⟩ := hbounds h0
  have hset := v4l2SetEdidPhysAddr_eq hloc h0 (by omega) hle hlen physAddr
  have hlength : (storeAddr edid loc physAddr).length = edid.length := by
    rw [storeAddr, List.length_set, List.length_set]
  have hfirst : loc / 128 * 128 = b * 128 := by omega
  have hblock : ((blockOf edid loc).take 126).sum = ((edid.drop (b * 128)).take 126).sum := by
    rw [blockOf, List.take_take, hfirst]
    rfl
  have hsum : (blockOf (storeChecksum (storeAddr edid loc physAddr) (b * 128)) loc).sum = 0 := by
    rw [blockOf, hfirst]
    exact sum_storeChecksum (by omega)
  have hkept : ∀ k, k ≠ loc → k ≠ loc + 1 → k ≠ loc / 128 * 128 + 127 →
      (storeChecksum (storeAddr edid loc physAddr) (b * 128))[k]? = edid[k]? := by
    intro k hhi hlo hcheck
    rw [hfirst] at hcheck
    rw [getElem?_storeChecksum (by omega), if_neg hcheck, getElem?_storeAddr (by omega), if_neg hhi, if_neg hlo]
  have hupdates : UpdatesPhysAddr edid loc physAddr ↔
      v4l2GetEdidPhysAddr (storeChecksum (storeAddr edid loc physAddr) (b * 128)) = some (physAddr, loc) := by
    constructor
    · rintro ⟨edid', hedid', -, hget, -⟩
      rw [Option.some.inj (hset.symm.trans hedid')]
      exact hget
    · intro hget
      exact ⟨_, hset, by rw [storeChecksum, List.length_set, hlength], hget, hsum, hkept⟩
  rw [hupdates, v4l2GetEdidPhysAddr_update hloc h0 hle hlen, Option.some.injEq, Prod.mk.injEq, be16_eq_iff,
    LowByteFits, hblock]
  by_cases hlast : loc = b * 128 + 126
  · rw [if_pos (by omega), hlast, sumBefore_storeAddr hlen]
    constructor
    · intro h _
      rw [← h.1]
      grind
    · intro h
      have hzero := h (by omega)
      exact ⟨by grind, rfl⟩
  · rw [if_neg (by omega)]
    exact ⟨fun _ h => absurd h (by omega), fun _ => ⟨rfl, rfl⟩⟩

/-- An EDID of two blocks whose data blocks fill the second one.  The last one is a vendor block of five bytes, and
the low byte of its address is the checksum. -/
def fullEdid : List UInt8 :=
  [0x00, 0xff, 0xff, 0xff, 0xff, 0xff, 0xff, 0x00] ++ List.replicate 118 0 ++ [0x01, 0x05] ++
    [0x02, 0x03, 0x7f, 0x00] ++ (0x1f :: List.replicate 31 0) ++ (0x1f :: List.replicate 31 0) ++
    (0x1f :: List.replicate 31 0) ++ (0x15 :: List.replicate 21 0) ++ [0x65, 0x03, 0x0c, 0x00, 0x10, 0x86]

/-- The checksum is stored over the low byte of the new address. -/
theorem fullEdid_overwrites :
    cecGetEdidSpaLocation fullEdid = some 254 ∧ (blockOf fullEdid 254).sum = 0 ∧
      ¬ UpdatesPhysAddr fullEdid 254 0x2000 := by
  refine ⟨by decide +kernel, by decide +kernel, ?_⟩
  rintro ⟨edid', hset, -, hget, -⟩
  have hread : (v4l2SetEdidPhysAddr fullEdid 0x2000).bind v4l2GetEdidPhysAddr ≠ some (0x2000, 254) := by
    decide +kernel
  exact hread (by rw [hset]; exact hget)

end V4l2
end TbsMedia
