import Mathlib
import TbsMedia.Rc.RcMain

/-!
# The key table

The table is a finite map from scancodes to keycodes, and a bit set beside it says which keycodes are
in use.  Every call of `ir_setkeycode` updates one scancode or fails; what the table holds behind any
number of calls is what the last successful update of each scancode has set.

* `irUpdateMapping_inv`, `irEstablishScancode_inv`: what the two steps of a call keep.
* `irSetkeycode_refines`: the table against the updates.
-/

namespace TbsMedia
namespace Rc

open Lib Function

/-! ## The room of a table -/

/-- The entries fit into the memory of the table. -/
structure RcMap.Fits (rcMap : RcMap) : Prop where
  len_le : rcMap.len ≤ rcMap.size
  size_eq : rcMap.size = rcMap.alloc / RC_MAP_TABLE_SIZE
  alloc_pos : RC_MAP_TABLE_SIZE ≤ rcMap.alloc
  alloc_lt : rcMap.alloc < 2 ^ 32

theorem RcMap.Fits.len_lt_noIndex {rcMap : RcMap} (h : rcMap.Fits) : rcMap.len < NO_INDEX := by
  have hlen := h.len_le
  have hsize := h.size_eq
  have halloc := h.alloc_lt
  unfold RC_MAP_TABLE_SIZE at hsize
  unfold NO_INDEX
  omega

theorem fits_irCreateTable {size : ℕ} {rcMap : RcMap} (hsize : 0 < size)
    (hmem : size * RC_MAP_TABLE_SIZE ≤ 2 ^ 31) (h : irCreateTable size true = some rcMap) :
    rcMap.Fits ∧ rcMap.scan = [] := by
  have hle : size * RC_MAP_TABLE_SIZE ≤ roundupPowOfTwo (size * RC_MAP_TABLE_SIZE) :=
    Nat.le_pow_clog Nat.one_lt_two _
  have hlt : roundupPowOfTwo (size * RC_MAP_TABLE_SIZE) ≤ 2 ^ 31 :=
    Nat.pow_le_pow_right Nat.two_pos (Nat.clog_le_of_le_pow hmem)
  obtain rfl := Option.some.inj h
  have hmod : roundupPowOfTwo (size * RC_MAP_TABLE_SIZE) % 2 ^ 32 =
      roundupPowOfTwo (size * RC_MAP_TABLE_SIZE) := Nat.mod_eq_of_lt (by omega)
  refine ⟨⟨Nat.zero_le _, rfl, ?_, Nat.mod_lt _ (by decide)⟩, rfl⟩
  change RC_MAP_TABLE_SIZE ≤ roundupPowOfTwo (size * RC_MAP_TABLE_SIZE) % 2 ^ 32
  rw [hmod]
  exact (Nat.le_mul_of_pos_left _ hsize).trans hle

/-- A resized table has the same entries, and room for one more if it was full. -/
theorem irResizeTable_spec {rcMap rcMap' : RcMap} {kmalloc : Bool} (h : rcMap.Fits)
    (hresize : irResizeTable rcMap kmalloc = some rcMap') :
    rcMap'.Fits ∧ rcMap'.scan = rcMap.scan ∧ (rcMap.size = rcMap.len → rcMap'.len < rcMap'.size) := by
  obtain ⟨hlen, hsize, hpos, hlt⟩ := h
  unfold RC_MAP_TABLE_SIZE at hsize hpos
  unfold irResizeTable at hresize
  dsimp only at hresize
  unfold IR_TAB_MAX_SIZE IR_TAB_MIN_SIZE at hresize
  split_ifs at hresize <;> first | cases hresize; done | obtain rfl := Option.some.inj hresize
  all_goals refine ⟨⟨?_, ?_, ?_, ?_⟩, rfl, fun heq => ?_⟩
  all_goals simp only [RcMap.len, RC_MAP_TABLE_SIZE] at * <;> omega

/-- The table behind a resize that may fail. -/
theorem irResizeTable_getD {rcMap : RcMap} (h : rcMap.Fits) (kmalloc : Bool) :
    ((irResizeTable rcMap kmalloc).getD rcMap).Fits ∧
      ((irResizeTable rcMap kmalloc).getD rcMap).scan = rcMap.scan := by
  cases hresize : irResizeTable rcMap kmalloc with
  | none => exact ⟨h, rfl⟩
  | some rcMap' =>
    obtain ⟨hfits, hscan, -⟩ := irResizeTable_spec h hresize
    exact ⟨hfits, hscan⟩

/-! ## The scan -/

/-- The scan stops at the scancode, or where it belongs. -/
theorem irScan_spec (scan : List RcMapTable) (scancode : ℕ) :
    ∃ l r, scan = l ++ r ∧ (irScan scan scancode).1 = l.length ∧ (∀ e ∈ l, e.scancode < scancode) ∧
      ((irScan scan scancode).2 = true → ∃ e r', r = e :: r' ∧ e.scancode = scancode) ∧
      ((irScan scan scancode).2 = false → ∀ e ∈ r.head?, scancode < e.scancode) := by
  induction scan with
  | nil => exact ⟨[], [], rfl, rfl, by simp, fun h => (nomatch h), by simp⟩
  | cons e scan ih =>
    unfold irScan
    split_ifs with heq hle
    · exact ⟨[], e :: scan, rfl, rfl, by simp, fun _ => ⟨e, scan, rfl, heq⟩, fun h => (nomatch h)⟩
    · refine ⟨[], e :: scan, rfl, rfl, by simp, fun h => (nomatch h), fun _ e' he' => ?_⟩
      obtain rfl := Option.some.inj he'
      omega
    · obtain ⟨l, r, hscan, hlen, hl, hhit, hmiss⟩ := ih
      refine ⟨e :: l, r, congrArg _ hscan, congrArg (· + 1) hlen, fun e' he' => ?_, hhit, hmiss⟩
      rcases List.mem_cons.mp he' with rfl | he'
      · omega
      · exact hl e' he'

theorem Sorted.lt_of_head {scan : List RcMapTable} {scancode : ℕ}
    (h : Lib.Sorted RcMapTable.scancode scan) (hhead : ∀ e ∈ scan.head?, scancode < e.scancode) :
    ∀ e ∈ scan, scancode < e.scancode := by
  intro e he
  cases scan with
  | nil => exact nomatch he
  | cons a scan =>
    rcases List.mem_cons.mp he with rfl | he
    · exact hhead e rfl
    · exact (hhead a rfl).trans ((List.pairwise_cons.mp h).1 e he)

/-! ## The map -/

/-- A keycode that is not a request to delete the entry. -/
def Mapped (keycode : ℕ) : Prop := keycode ≠ KEY_RESERVED ∧ keycode ≠ KEY_UNKNOWN

instance (keycode : ℕ) : Decidable (Mapped keycode) := inferInstanceAs (Decidable (_ ∧ _))

/-- The table of a device holds what the last updates `last` have set, apart from entries that are
still reserved. -/
structure Holds (dev : RcDev) (last : ℕ → Option ℕ) : Prop where
  fits : dev.rcMap.Fits
  sorted : Lib.Sorted RcMapTable.scancode dev.rcMap.scan
  mem_iff : ∀ e, e ∈ dev.rcMap.scan ∧ e.keycode ≠ KEY_RESERVED ↔
    last e.scancode = some e.keycode ∧ Mapped e.keycode
  keybit_iff : ∀ k, k ≠ KEY_RESERVED → (dev.keybit k = true ↔ ∃ e ∈ dev.rcMap.scan, e.keycode = k)

/-- No entry is reserved. -/
def NoneReserved (scan : List RcMapTable) : Prop := ∀ e ∈ scan, e.keycode ≠ KEY_RESERVED

theorem RcMap.entry_append {rcMap : RcMap} {l r : List RcMapTable} {e : RcMapTable}
    (h : rcMap.scan = l ++ e :: r) : rcMap.entry l.length = e := by
  unfold RcMap.entry
  rw [h, List.getElem?_append_right (Nat.le_refl _), Nat.sub_self]
  rfl

/-- The table without one of its entries. -/
theorem RcMap.eraseIdx_append {l r : List RcMapTable} {e : RcMapTable} :
    (l ++ e :: r).eraseIdx l.length = l ++ r := by
  rw [List.eraseIdx_append_of_length_le (Nat.le_refl _), Nat.sub_self, List.eraseIdx_cons_zero]

theorem RcMap.set_append {l r : List RcMapTable} {e e' : RcMapTable} :
    (l ++ e :: r).set l.length e' = l ++ e' :: r := by
  rw [List.set_append_right _ _ (Nat.le_refl _), Nat.sub_self, List.set_cons_zero]

theorem RcMap.insertIdx_append {l r : List RcMapTable} {e : RcMapTable} :
    (l ++ r).insertIdx l.length e = l ++ e :: r := by
  induction l with
  | nil => rfl
  | cons a l ih => exact congrArg (a :: ·) ih

/-! ## One update -/

theorem mem_middle {l r : List RcMapTable} {x e : RcMapTable} (hne : x ≠ e) :
    x ∈ l ++ e :: r ↔ x ∈ l ++ r := by
  rw [List.mem_append, List.mem_append, List.mem_cons, or_iff_right hne]

/-- The entries of the table behind an update: the entry is gone, or has its new keycode. -/
def updated (l r : List RcMapTable) (e : RcMapTable) (keycode : ℕ) : List RcMapTable :=
  if keycode = KEY_RESERVED ∨ keycode = KEY_UNKNOWN then l ++ r else l ++ ⟨e.scancode, keycode⟩ :: r

theorem mem_updated {l r : List RcMapTable} {e x : RcMapTable} {keycode : ℕ} :
    x ∈ updated l r e keycode ↔
      x ∈ l ++ r ∨ (x.scancode = e.scancode ∧ x.keycode = keycode ∧ Mapped keycode) := by
  unfold updated Mapped
  split_ifs with hdel
  · constructor
    · exact Or.inl
    · rintro (hx | ⟨-, -, hne, hne'⟩)
      · exact hx
      · exact absurd hdel (not_or.mpr ⟨hne, hne'⟩)
  · rw [List.mem_append, List.mem_cons, List.mem_append]
    constructor
    · rintro (hx | rfl | hx)
      · exact Or.inl (Or.inl hx)
      · exact Or.inr ⟨rfl, rfl, not_or.mp hdel⟩
      · exact Or.inl (Or.inr hx)
    · rintro ((hx | hx) | ⟨hs, hk, -⟩)
      · exact Or.inl hx
      · exact Or.inr (Or.inr hx)
      · exact Or.inr (Or.inl (by cases x; cases hs; cases hk; rfl))

/-- The first half of an update, in front of the bit of the old keycode and the resize. -/
theorem irUpdateMapping_eq {dev : RcDev} {l r : List RcMapTable} {e : RcMapTable}
    (hscan : dev.rcMap.scan = l ++ e :: r) (keycode : ℕ) (kmalloc : Bool) :
    irUpdateMapping dev l.length keycode kmalloc =
      (let dev₁ : RcDev := { dev with
          rcMap := { dev.rcMap with scan := updated l r e keycode }
          keybit := if Mapped keycode then update dev.keybit keycode true else dev.keybit }
       if e.keycode ≠ KEY_RESERVED then
        ({ dev₁ with
          keybit := update dev₁.keybit e.keycode
            ((updated l r e keycode).any fun x => x.keycode == e.keycode)
          rcMap := (irResizeTable dev₁.rcMap kmalloc).getD dev₁.rcMap }, e.keycode)
       else (dev₁, e.keycode)) := by
  unfold irUpdateMapping
  dsimp only
  rw [RcMap.entry_append hscan]
  by_cases hdel : keycode = KEY_RESERVED ∨ keycode = KEY_UNKNOWN
  · have hmapped : ¬ Mapped keycode := fun h => hdel.elim h.1 h.2
    rw [if_pos hdel, hscan, RcMap.eraseIdx_append, if_neg hmapped, updated, if_pos hdel]
  · have hmapped : Mapped keycode := not_or.mp hdel
    rw [if_neg hdel, hscan, RcMap.set_append, if_pos hmapped, updated, if_neg hdel]

theorem irUpdateMapping_rcMap {dev : RcDev} {l r : List RcMapTable} {e : RcMapTable}
    (hfits : dev.rcMap.Fits) (hscan : dev.rcMap.scan = l ++ e :: r) (keycode : ℕ) (kmalloc : Bool) :
    (irUpdateMapping dev l.length keycode kmalloc).1.rcMap.Fits ∧
      (irUpdateMapping dev l.length keycode kmalloc).1.rcMap.scan = updated l r e keycode := by
  have hupdated : RcMap.Fits { dev.rcMap with scan := updated l r e keycode } := by
    refine ⟨le_trans ?_ hfits.len_le, hfits.size_eq, hfits.alloc_pos, hfits.alloc_lt⟩
    unfold RcMap.len updated
    rw [hscan]
    split_ifs <;> simp
  rw [irUpdateMapping_eq hscan]
  dsimp only
  by_cases hold : e.keycode ≠ KEY_RESERVED
  · rw [if_pos hold]
    exact irResizeTable_getD hupdated kmalloc
  · rw [if_neg hold]
    exact ⟨hupdated, rfl⟩

theorem irUpdateMapping_scancodeMask {dev : RcDev} {l r : List RcMapTable} {e : RcMapTable}
    (hscan : dev.rcMap.scan = l ++ e :: r) (keycode : ℕ) (kmalloc : Bool) :
    (irUpdateMapping dev l.length keycode kmalloc).1.scancodeMask = dev.scancodeMask := by
  rw [irUpdateMapping_eq hscan]
  dsimp only
  by_cases hold : e.keycode ≠ KEY_RESERVED
  · rw [if_pos hold]
  · rw [if_neg hold]

/-- The bits of the other keycodes behind the first half of an update. -/
theorem keybit_updated {keybit : ℕ → Bool} {l r : List RcMapTable} {e : RcMapTable} {keycode k : ℕ}
    (hbit : keybit k = true ↔ ∃ x ∈ l ++ e :: r, x.keycode = k) (hne : k ≠ e.keycode) :
    (if Mapped keycode then update keybit keycode true else keybit) k = true ↔
      ∃ x ∈ updated l r e keycode, x.keycode = k := by
  have hothers : (∃ x ∈ l ++ e :: r, x.keycode = k) ↔ ∃ x ∈ l ++ r, x.keycode = k := by
    refine exists_congr fun x => and_congr_left fun hxk => mem_middle fun hxe => ?_
    exact hne (hxk.symm.trans (congrArg _ hxe))
  by_cases hset : Mapped keycode ∧ k = keycode
  · obtain ⟨hmapped, rfl⟩ := hset
    rw [if_pos hmapped, update_self]
    exact ⟨fun _ => ⟨⟨e.scancode, k⟩, mem_updated.mpr (Or.inr ⟨rfl, rfl, hmapped⟩), rfl⟩, fun _ => rfl⟩
  · have hkeep : (if Mapped keycode then update keybit keycode true else keybit) k = keybit k := by
      split_ifs with hmapped
      · exact update_of_ne (fun h => hset ⟨hmapped, h⟩) _ _
      · rfl
    rw [hkeep, hbit, hothers]
    constructor
    · rintro ⟨x, hx, hxk⟩
      exact ⟨x, mem_updated.mpr (Or.inl hx), hxk⟩
    · rintro ⟨x, hx, hxk⟩
      rcases mem_updated.mp hx with hx | ⟨-, hkeycode, hmapped⟩
      · exact ⟨x, hx, hxk⟩
      · exact absurd ⟨hmapped, hxk.symm.trans hkeycode⟩ hset

/-- The bits behind an update are exact if they were. -/
theorem irUpdateMapping_keybit {dev : RcDev} {l r : List RcMapTable} {e : RcMapTable}
    (hscan : dev.rcMap.scan = l ++ e :: r) {k : ℕ}
    (hbit : dev.keybit k = true ↔ ∃ x ∈ dev.rcMap.scan, x.keycode = k) (hk : k ≠ KEY_RESERVED)
    (keycode : ℕ) (kmalloc : Bool) :
    (irUpdateMapping dev l.length keycode kmalloc).1.keybit k = true ↔
      ∃ x ∈ updated l r e keycode, x.keycode = k := by
  rw [hscan] at hbit
  rw [irUpdateMapping_eq hscan]
  dsimp only
  by_cases hold : e.keycode ≠ KEY_RESERVED
  · rw [if_pos hold]
    dsimp only
    by_cases hke : k = e.keycode
    · rw [hke, update_self, List.any_eq_true]
      exact exists_congr fun x => and_congr_right fun _ => beq_iff_eq
    · rw [update_of_ne hke]
      exact keybit_updated hbit hke
  · rw [if_neg hold]
    exact keybit_updated hbit fun hke => hold (hke ▸ hk)

/-- **An update** of an entry: the table holds the new keycode for its scancode. -/
theorem irUpdateMapping_inv {dev : RcDev} {last : ℕ → Option ℕ} (h : Holds dev last)
    {l r : List RcMapTable} {e : RcMapTable} (hscan : dev.rcMap.scan = l ++ e :: r)
    (hothers : NoneReserved (l ++ r)) (keycode : ℕ) (kmalloc : Bool) :
    Holds (irUpdateMapping dev l.length keycode kmalloc).1
        (update last e.scancode (some keycode)) ∧
      NoneReserved (irUpdateMapping dev l.length keycode kmalloc).1.rcMap.scan := by
  obtain ⟨hfits, hscan'⟩ := irUpdateMapping_rcMap h.fits hscan keycode kmalloc
  have hsorted : Lib.Sorted RcMapTable.scancode (l ++ e :: r) := hscan ▸ h.sorted
  refine ⟨⟨hfits, ?_, fun x => ?_, fun k hk => ?_⟩, ?_⟩
  · rw [hscan', updated]
    split_ifs
    · exact hsorted.erase
    · exact hsorted.replace rfl
  · rw [hscan', mem_updated]
    by_cases hx : x.scancode = e.scancode
    · rw [hx, update_self]
      constructor
      · rintro ⟨hmem | ⟨-, rfl, hmapped⟩, -⟩
        · exact absurd hx (hsorted.key_ne hmem)
        · exact ⟨rfl, hmapped⟩
      · rintro ⟨hkey, hmapped⟩
        obtain rfl := Option.some.inj hkey
        exact ⟨Or.inr ⟨rfl, rfl, hmapped⟩, hmapped.1⟩
    · rw [update_of_ne hx, ← h.mem_iff x, hscan]
      rw [mem_middle fun hxe => hx (congrArg _ hxe), or_iff_left fun h => hx h.1]
  · rw [hscan']
    exact irUpdateMapping_keybit hscan (h.keybit_iff k hk) hk keycode kmalloc
  · rw [hscan']
    intro x hx
    rcases mem_updated.mp hx with hx | ⟨-, hkey, hmapped⟩
    · exact hothers x hx
    · exact hkey ▸ hmapped.1

/-! ## A new entry -/

/-- The scancode that is established has an entry at the index, and the rest of the table is as it
was; or there was no room and nothing has changed. -/
theorem irEstablishScancode_inv {dev : RcDev} {last : ℕ → Option ℕ} (h : Holds dev last)
    (hnone : NoneReserved dev.rcMap.scan) (scancode : ℕ) (resize kmalloc : Bool) :
    Holds (irEstablishScancode dev scancode resize kmalloc).1 last ∧
      ((irEstablishScancode dev scancode resize kmalloc = (dev, NO_INDEX)) ∨
        ∃ l r e, (irEstablishScancode dev scancode resize kmalloc).2 = l.length ∧
          (irEstablishScancode dev scancode resize kmalloc).1.rcMap.scan = l ++ e :: r ∧
          e.scancode = dev.masked scancode ∧ NoneReserved (l ++ r)) := by
  obtain ⟨l, r, hscan, hlen, hl, hhit, hmiss⟩ := irScan_spec dev.rcMap.scan (dev.masked scancode)
  unfold irEstablishScancode
  dsimp only
  by_cases hfound : (irScan dev.rcMap.scan (dev.masked scancode)).2 = true
  · rw [if_pos hfound]
    obtain ⟨e, r', rfl, he⟩ := hhit hfound
    refine ⟨h, Or.inr ⟨l, r', e, hlen, hscan, he, fun x hx => hnone x ?_⟩⟩
    rw [hscan]
    exact List.mem_append.mpr ((List.mem_append.mp hx).imp_right (List.mem_cons_of_mem e))
  rw [if_neg hfound]
  have hr : ∀ x ∈ r, dev.masked scancode < x.scancode := by
    have hsorted : Lib.Sorted RcMapTable.scancode r :=
      (List.pairwise_append.mp (hscan ▸ h.sorted : Lib.Sorted RcMapTable.scancode (l ++ r))).2.1
    exact Sorted.lt_of_head hsorted (hmiss (Bool.eq_false_iff.mpr hfound))
  generalize hgrown : (if dev.rcMap.size = dev.rcMap.len then
    if resize then irResizeTable dev.rcMap kmalloc else none else some dev.rcMap) = grown
  cases grown with
  | none => exact ⟨h, Or.inl rfl⟩
  | some rcMap =>
    have hroom : rcMap.Fits ∧ rcMap.scan = dev.rcMap.scan ∧ rcMap.len < rcMap.size := by
      split_ifs at hgrown with hfull hresize
      · obtain ⟨hfits, heq, hlt⟩ := irResizeTable_spec h.fits hgrown
        exact ⟨hfits, heq, hlt hfull⟩
      · obtain rfl := Option.some.inj hgrown
        exact ⟨h.fits, rfl, lt_of_le_of_ne h.fits.len_le (Ne.symm hfull)⟩
    obtain ⟨hfits, heq, hlt⟩ := hroom
    have hnew : rcMap.scan.insertIdx (irScan dev.rcMap.scan (dev.masked scancode)).1
        ⟨dev.masked scancode, KEY_RESERVED⟩ = l ++ ⟨dev.masked scancode, KEY_RESERVED⟩ :: r := by
      rw [heq, hlen, hscan, RcMap.insertIdx_append]
    have hmem : ∀ x : RcMapTable, x.keycode ≠ KEY_RESERVED →
        (x ∈ l ++ ⟨dev.masked scancode, KEY_RESERVED⟩ :: r ↔ x ∈ dev.rcMap.scan) := by
      intro x hx
      rw [hscan]
      exact mem_middle fun hxe => hx (congrArg RcMapTable.keycode hxe)
    dsimp only
    rw [hnew]
    refine ⟨⟨⟨?_, hfits.size_eq, hfits.alloc_pos, hfits.alloc_lt⟩, ?_, fun x => ?_, fun k hk => ?_⟩,
      Or.inr ⟨l, r, _, hlen, rfl, rfl, fun x hx => hnone x (hscan ▸ hx)⟩⟩
    · have hroom : rcMap.scan.length < rcMap.size := hlt
      rw [heq, hscan, List.length_append] at hroom
      change (l ++ (⟨dev.masked scancode, KEY_RESERVED⟩ : RcMapTable) :: r).length ≤ rcMap.size
      rw [List.length_append, List.length_cons]
      omega
    · exact Lib.Sorted.insert (hscan ▸ h.sorted) hl hr
    · rw [← h.mem_iff x]
      exact and_congr_left fun hx => hmem x hx
    · change dev.keybit k = true ↔ _
      rw [h.keybit_iff k hk]
      exact exists_congr fun x => and_congr_left fun hx => (hmem x (hx ▸ hk)).symm

/-! ## Calls -/

/-- One call of `ir_setkeycode`, with the outcome of its allocations. -/
structure SetCall where
  ref : KeymapRef
  keycode : ℕ
  kmalloc₁ : Bool
  kmalloc₂ : Bool

/-- `ir_setkeycode` on the arguments of a call. -/
def RcDev.set (dev : RcDev) (call : SetCall) : RcDev × Except Errno ℕ :=
  irSetkeycode dev call.ref call.keycode call.kmalloc₁ call.kmalloc₂

/-- The device behind a sequence of calls. -/
def RcDev.setAll : RcDev → List SetCall → RcDev
  | dev, [] => dev
  | dev, call :: calls => RcDev.setAll (dev.set call).1 calls

/-- The scancode that a call updates. -/
def RcDev.target (dev : RcDev) : KeymapRef → Option ℕ
  | .byIndex index => some (dev.rcMap.entry index).scancode
  | .byScancode scancode => scancode.map dev.masked

/-- The call succeeds, and it updates `scancode`. -/
def RcDev.Updates (dev : RcDev) (call : SetCall) (scancode : ℕ) : Prop :=
  (dev.set call).2.isOk = true ∧ dev.target call.ref = some scancode

instance (dev : RcDev) (call : SetCall) (scancode : ℕ) : Decidable (dev.Updates call scancode) :=
  inferInstanceAs (Decidable (_ ∧ _))

/-- The keycode of the last of the calls that has updated `scancode`. -/
def lastUpdate (scancode : ℕ) : RcDev → List SetCall → Option ℕ
  | _, [] => none
  | dev, call :: calls =>
    (lastUpdate scancode (dev.set call).1 calls).or
      (if dev.Updates call scancode then some call.keycode else none)

/-- What the last updates are behind one more call. -/
def RcDev.book (dev : RcDev) (call : SetCall) (last : ℕ → Option ℕ) (scancode : ℕ) : Option ℕ :=
  if dev.Updates call scancode then some call.keycode else last scancode

theorem book_of_error {dev : RcDev} {call : SetCall} {last : ℕ → Option ℕ} {dev' : RcDev} {e : Errno}
    (h : dev.set call = (dev', .error e)) : dev.book call last = last := by
  funext scancode
  refine if_neg fun hupdates => ?_
  have hok := hupdates.1
  rw [h] at hok
  exact nomatch hok

theorem book_of_ok {dev : RcDev} {call : SetCall} {last : ℕ → Option ℕ} {dev' : RcDev} {old s : ℕ}
    (h : dev.set call = (dev', .ok old)) (hs : dev.target call.ref = some s) :
    dev.book call last = update last s (some call.keycode) := by
  funext scancode
  by_cases hscancode : scancode = s
  · rw [hscancode, update_self]
    exact if_pos ⟨by rw [h]; rfl, hs⟩
  · rw [update_of_ne hscancode]
    exact if_neg fun hupdates => hscancode (Option.some.inj (hupdates.2.symm.trans hs))

theorem set_byIndex {dev : RcDev} {index : ℕ} (h : index < dev.rcMap.len) (keycode : ℕ)
    (kmalloc₁ kmalloc₂ : Bool) :
    dev.set ⟨.byIndex index, keycode, kmalloc₁, kmalloc₂⟩ =
      ((irUpdateMapping dev index keycode kmalloc₂).1,
        .ok (irUpdateMapping dev index keycode kmalloc₂).2) := by
  unfold RcDev.set irSetkeycode
  dsimp only
  rw [if_neg (Nat.not_le.mpr h)]

theorem set_byScancode_of_noIndex {dev : RcDev} {scancode : ℕ} {kmalloc₁ : Bool}
    (h : irEstablishScancode dev scancode true kmalloc₁ = (dev, NO_INDEX))
    (hlen : dev.rcMap.len < NO_INDEX) (keycode : ℕ) (kmalloc₂ : Bool) :
    dev.set ⟨.byScancode (some scancode), keycode, kmalloc₁, kmalloc₂⟩ =
      (dev, .error .ENOMEM) := by
  unfold RcDev.set irSetkeycode
  dsimp only
  rw [h]
  exact if_pos hlen.le

theorem set_byScancode {dev dev' : RcDev} {scancode index : ℕ} {kmalloc₁ : Bool}
    (h : irEstablishScancode dev scancode true kmalloc₁ = (dev', index))
    (hlen : index < dev'.rcMap.len) (keycode : ℕ) (kmalloc₂ : Bool) :
    dev.set ⟨.byScancode (some scancode), keycode, kmalloc₁, kmalloc₂⟩ =
      ((irUpdateMapping dev' index keycode kmalloc₂).1,
        .ok (irUpdateMapping dev' index keycode kmalloc₂).2) := by
  unfold RcDev.set irSetkeycode
  dsimp only
  rw [h]
  dsimp only
  rw [if_neg (Nat.not_le.mpr hlen)]

/-- **One call** of `ir_setkeycode`. -/
theorem irSetkeycode_inv {dev : RcDev} {last : ℕ → Option ℕ} (h : Holds dev last)
    (hnone : NoneReserved dev.rcMap.scan) (call : SetCall) :
    Holds (dev.set call).1 (dev.book call last) ∧ NoneReserved (dev.set call).1.rcMap.scan := by
  obtain ⟨ref, keycode, kmalloc₁, kmalloc₂⟩ := call
  cases ref with
  | byIndex index =>
    by_cases hindex : dev.rcMap.len ≤ index
    · have hset : dev.set ⟨.byIndex index, keycode, kmalloc₁, kmalloc₂⟩ = (dev, .error .EINVAL) :=
        if_pos hindex
      rw [book_of_error hset, hset]
      exact ⟨h, hnone⟩
    · have hlt : index < dev.rcMap.scan.length := Nat.not_le.mp hindex
      have hset := set_byIndex hlt keycode kmalloc₁ kmalloc₂
      have hscan := (List.take_append_drop index dev.rcMap.scan).symm
      rw [List.drop_eq_getElem_cons hlt] at hscan
      have hlen : (dev.rcMap.scan.take index).length = index := List.length_take_of_le hlt.le
      have hentry := RcMap.entry_append hscan
      have hinv := irUpdateMapping_inv h hscan (fun x hx => hnone x ?_) keycode kmalloc₂
      · rw [hlen] at hentry hinv
        rw [book_of_ok hset (congrArg (fun e => some (RcMapTable.scancode e)) hentry)]
        exact hset ▸ hinv
      · rw [hscan]
        exact List.mem_append.mpr ((List.mem_append.mp hx).imp_right (List.mem_cons_of_mem _))
  | byScancode scancode =>
    cases scancode with
    | none =>
      rw [book_of_error (rfl : dev.set ⟨.byScancode none, keycode, kmalloc₁, kmalloc₂⟩ = _)]
      exact ⟨h, hnone⟩
    | some scancode =>
      obtain ⟨hholds, hfull | ⟨l, r, e, hindex, hscan, he, hothers⟩⟩ :=
        irEstablishScancode_inv h hnone scancode true kmalloc₁
      · have hset := set_byScancode_of_noIndex hfull h.fits.len_lt_noIndex keycode kmalloc₂
        rw [book_of_error hset]
        exact hset ▸ ⟨h, hnone⟩
      · rcases hestablish : irEstablishScancode dev scancode true kmalloc₁ with ⟨dev', index⟩
        rw [hestablish] at hholds hindex hscan
        obtain rfl : index = l.length := hindex
        have hlen : l.length < dev'.rcMap.len := by
          unfold RcMap.len
          rw [hscan, List.length_append, List.length_cons]
          omega
        have hset := set_byScancode hestablish hlen keycode kmalloc₂
        rw [book_of_ok hset (rfl : _ = some (dev.masked scancode)), ← he]
        exact hset ▸ irUpdateMapping_inv hholds hscan hothers keycode kmalloc₂

theorem lastUpdate_cons (scancode : ℕ) (dev : RcDev) (call : SetCall) (calls : List SetCall)
    (last : ℕ → Option ℕ) :
    (lastUpdate scancode dev (call :: calls)).or (last scancode) =
      (lastUpdate scancode (dev.set call).1 calls).or (dev.book call last scancode) := by
  rw [lastUpdate, Option.or_assoc, RcDev.book]
  split_ifs <;> rfl

theorem setAll_inv {dev : RcDev} {last : ℕ → Option ℕ} (h : Holds dev last)
    (hnone : NoneReserved dev.rcMap.scan) (calls : List SetCall) :
    Holds (dev.setAll calls) (fun s => (lastUpdate s dev calls).or (last s)) ∧
      NoneReserved (dev.setAll calls).rcMap.scan := by
  induction calls generalizing dev last with
  | nil => exact ⟨h, hnone⟩
  | cons call calls ih =>
    obtain ⟨hstep, hnone'⟩ := irSetkeycode_inv h hnone call
    have hrun := ih hstep hnone'
    simp only [lastUpdate_cons]
    exact hrun

/-! ## Looking up -/

theorem irLookupByScancode_lt {rcMap : RcMap} (hfits : rcMap.Fits)
    (hsorted : Lib.Sorted RcMapTable.scancode rcMap.scan) (s : ℕ) :
    irLookupByScancode rcMap s < rcMap.len ↔ ∃ e ∈ rcMap.scan, e.scancode = s := by
  unfold irLookupByScancode
  cases hfind : bsearch (fun e : RcMapTable => compare s e.scancode) rcMap.scan with
  | none =>
    constructor
    · exact fun h => absurd h hfits.len_lt_noIndex.le.not_gt
    · rintro ⟨e, he, hs⟩
      obtain ⟨i, hi⟩ := List.mem_iff_getElem?.mp he
      exact nomatch hfind.symm.trans ((bsearch_eq_some_iff hsorted).mpr ⟨e, hi, hs⟩)
  | some i =>
    obtain ⟨e, he, hs⟩ := (bsearch_eq_some_iff hsorted).mp hfind
    obtain ⟨hi, -⟩ := List.getElem?_eq_some_iff.mp he
    exact ⟨fun _ => ⟨e, List.mem_of_getElem? he, hs⟩, fun _ => hi⟩

/-- The entry that is looked up is that of the scancode. -/
theorem entry_irLookupByScancode {rcMap : RcMap} (hsorted : Lib.Sorted RcMapTable.scancode rcMap.scan)
    {e : RcMapTable} (he : e ∈ rcMap.scan) :
    rcMap.entry (irLookupByScancode rcMap e.scancode) = e := by
  obtain ⟨i, hi⟩ := List.mem_iff_getElem?.mp he
  unfold irLookupByScancode RcMap.entry
  rw [(bsearch_eq_some_iff hsorted).mpr ⟨e, hi, rfl⟩, Option.getD_some, hi, Option.getD_some]

/-- What a table that holds the last updates answers. -/
theorem Holds.lookup {dev : RcDev} {last : ℕ → Option ℕ} (h : Holds dev last)
    (hnone : NoneReserved dev.rcMap.scan) (s : ℕ) :
    (irLookupByScancode dev.rcMap s < dev.rcMap.len ↔ ∃ k, last s = some k ∧ Mapped k) ∧
      ∀ k, last s = some k → Mapped k → rcGKeycodeFromTable dev s = k := by
  constructor
  · rw [irLookupByScancode_lt h.fits h.sorted]
    constructor
    · rintro ⟨e, he, rfl⟩
      exact ⟨e.keycode, (h.mem_iff e).mp ⟨he, hnone e he⟩⟩
    · rintro ⟨k, hk⟩
      exact ⟨⟨s, k⟩, ((h.mem_iff ⟨s, k⟩).mpr hk).1, rfl⟩
  · intro k hlast hmapped
    have he := ((h.mem_iff ⟨s, k⟩).mpr ⟨hlast, hmapped⟩).1
    have hlt := (irLookupByScancode_lt h.fits h.sorted s).mpr ⟨_, he, rfl⟩
    have hentry := entry_irLookupByScancode h.sorted he
    unfold rcGKeycodeFromTable
    dsimp only
    rw [if_pos hlt]
    exact congrArg RcMapTable.keycode hentry

/-- **The table is a map**: behind every sequence of calls on a new table it is sorted and within its
room, a scancode is found exactly if its last successful update has mapped it, with the keycode of
that update, and the bits are those of the keycodes in use. -/
theorem irSetkeycode_refines {dev : RcDev} {size : ℕ} (hsize : 0 < size)
    (hmem : size * RC_MAP_TABLE_SIZE ≤ 2 ^ 31) (hcreate : irCreateTable size true = some dev.rcMap)
    (hkeybit : ∀ k, dev.keybit k = false) (calls : List SetCall) :
    Lib.Sorted RcMapTable.scancode (dev.setAll calls).rcMap.scan ∧
    (dev.setAll calls).rcMap.len ≤ (dev.setAll calls).rcMap.size ∧
    (∀ s, irLookupByScancode (dev.setAll calls).rcMap s < (dev.setAll calls).rcMap.len ↔
      ∃ k, lastUpdate s dev calls = some k ∧ k ≠ KEY_RESERVED ∧ k ≠ KEY_UNKNOWN) ∧
    (∀ s k, lastUpdate s dev calls = some k → k ≠ KEY_RESERVED → k ≠ KEY_UNKNOWN →
      rcGKeycodeFromTable (dev.setAll calls) s = k) ∧
    ∀ k, k ≠ KEY_RESERVED → ((dev.setAll calls).keybit k = true ↔
      ∃ e ∈ (dev.setAll calls).rcMap.scan, e.keycode = k) := by
  obtain ⟨hfits, hscan⟩ := fits_irCreateTable hsize hmem hcreate
  have hnew : Holds dev fun _ => none := by
    refine ⟨hfits, hscan ▸ Lib.sorted_nil _, fun e => ?_, fun k _ => ?_⟩
    · rw [hscan]
      exact ⟨fun h => (nomatch h.1), fun h => (nomatch h.1)⟩
    · rw [hscan, hkeybit k]
      exact ⟨fun h => (nomatch h), fun ⟨e, he, _⟩ => (nomatch he)⟩
  obtain ⟨hholds, hnone⟩ := setAll_inv hnew (fun e he => by rw [hscan] at he; exact nomatch he) calls
  simp only [Option.or_none] at hholds
  refine ⟨hholds.sorted, hholds.fits.len_le, fun s => (hholds.lookup hnone s).1,
    fun s k hk hres hunk => (hholds.lookup hnone s).2 k hk ⟨hres, hunk⟩, hholds.keybit_iff⟩

/-- Two scancodes get one keycode, with a table that has to grow in between. -/
def shareKey : List SetCall :=
  [⟨.byScancode (some 5), 30, true, true⟩, ⟨.byScancode (some 3), 30, false, true⟩,
    ⟨.byScancode (some 3), 30, true, true⟩, ⟨.byIndex 1, 48, true, true⟩]

theorem irSetkeycode_refines_shareKey :
    rcGKeycodeFromTable ((RcDev.new ⟨[], 1, 8⟩).setAll shareKey) 5 = 48 ∧
      irLookupByScancode ((RcDev.new ⟨[], 1, 8⟩).setAll shareKey).rcMap 3 <
        ((RcDev.new ⟨[], 1, 8⟩).setAll shareKey).rcMap.len := by
  obtain ⟨-, -, hfound, hkeycode, -⟩ := @irSetkeycode_refines (RcDev.new ⟨[], 1, 8⟩) 1
    (by decide) (by decide) (by decide +kernel) (fun _ => rfl) shareKey
  exact ⟨hkeycode 5 48 (by decide +kernel) (by decide) (by decide),
    (hfound 3).mpr ⟨30, by decide +kernel, by decide, by decide⟩⟩

end Rc
end TbsMedia
