import Mathlib
import TbsMedia.Rc.KeyTable

/-!
# Loading a key table

`ir_setkeytable` creates a table for the entries of a map and inserts them one after the other.  The
table has room for all of them when it is created, and an insertion must not grow it; but an update
that replaces or deletes a keycode resizes the table, and may halve it.

* `irSetkeytableLoop_inv`: the table behind any part of the map.
* `irSetkeytable_loads`: what a load leaves in the table.
-/

namespace TbsMedia
namespace Rc

open Lib Function

/-! ## The load -/

/-- The loop of `ir_setkeytable` over the entries from number `i` on; `kmalloc` says which allocations
succeed. -/
def irSetkeytableLoop (kmalloc : ℕ → Bool) : ℕ → RcDev → List RcMapTable → RcDev × Except Errno Unit
  | _, dev, [] => (dev, .ok ())
  | i, dev, e :: scan =>
    let (dev, index) := irEstablishScancode dev e.scancode false true
    if dev.rcMap.len ≤ index then (dev, .error .ENOMEM)
    else irSetkeytableLoop kmalloc (i + 1) (irUpdateMapping dev index e.keycode (kmalloc i)).1 scan

/-- `ir_free_table`.  The device is not registered behind it. -/
def irFreeTable (rcMap : RcMap) : RcMap := { rcMap with scan := [], size := 0 }

/-- `ir_setkeytable` on the entries of a map.  The allocations are those of the name, of the table and
of the updates, in this order. -/
def irSetkeytable (dev : RcDev) (scan : List RcMapTable) (kmalloc : ℕ → Bool) :
    RcDev × Except Errno Unit :=
  if kmalloc 0 = false then (dev, .error .ENOMEM)
  else
    match irCreateTable scan.length (kmalloc 1) with
    | none => (dev, .error .ENOMEM)
    | some rcMap =>
      match irSetkeytableLoop kmalloc 2 { dev with rcMap := rcMap } scan with
      | (dev, .ok ()) => (dev, .ok ())
      | (dev, .error e) => ({ dev with rcMap := irFreeTable dev.rcMap }, .error e)

/-! ## What the map asks for -/

/-- The keycode of the last entry for a scancode, as the device masks it. -/
def lastKeycode (masked : ℕ → ℕ) (entries : List RcMapTable) (s : ℕ) : Option ℕ :=
  (entries.reverse.find? fun e => masked e.scancode == s).map RcMapTable.keycode

theorem lastKeycode_snoc (masked : ℕ → ℕ) (entries : List RcMapTable) (e : RcMapTable) :
    lastKeycode masked (entries ++ [e]) =
      update (lastKeycode masked entries) (masked e.scancode) (some e.keycode) := by
  funext s
  unfold lastKeycode
  rw [List.reverse_append, List.reverse_singleton, List.singleton_append, List.find?_cons]
  by_cases hs : masked e.scancode = s
  · rw [beq_iff_eq.mpr hs, ← hs, update_self]
    rfl
  · rw [beq_eq_false_iff_ne.mpr hs, update_of_ne (Ne.symm hs)]

/-- The scancodes that the entries map to a key. -/
def mapped (masked : ℕ → ℕ) (entries : List RcMapTable) : Finset ℕ :=
  (entries.map fun e => masked e.scancode).toFinset.filter fun s =>
    (lastKeycode masked entries s).any (fun k => decide (Mapped k)) = true

theorem mem_mapped {masked : ℕ → ℕ} {entries : List RcMapTable} {s : ℕ} :
    s ∈ mapped masked entries ↔ ∃ k, lastKeycode masked entries s = some k ∧ Mapped k := by
  unfold mapped
  rw [Finset.mem_filter, List.mem_toFinset, Option.any_eq_true]
  constructor
  · rintro ⟨-, k, hk, hmapped⟩
    exact ⟨k, hk, of_decide_eq_true hmapped⟩
  · rintro ⟨k, hk, hmapped⟩
    refine ⟨?_, k, hk, decide_eq_true hmapped⟩
    obtain ⟨e, he, -⟩ := Option.map_eq_some_iff.mp hk
    exact List.mem_map.mpr ⟨e, List.mem_reverse.mp (List.mem_of_find?_eq_some he),
      beq_iff_eq.mp (List.find?_some (p := fun e : RcMapTable => masked e.scancode == s) he)⟩

/-- The memory of a table of `len` entries that `ir_resize_table` looks at. -/
def resizedAlloc (alloc len : ℕ) : ℕ :=
  if alloc / RC_MAP_TABLE_SIZE = len ∧ IR_TAB_MAX_SIZE ≤ alloc then alloc
  else
    let newalloc := if alloc / RC_MAP_TABLE_SIZE = len then alloc * 2 else alloc
    if len * 3 < alloc / RC_MAP_TABLE_SIZE ∧ IR_TAB_MIN_SIZE < alloc then newalloc / 2 else newalloc

/-- Behind the entries `done`, with a table of `alloc` bytes, every further entry with a scancode that
is not in the table finds room; one whose scancode is there resizes the table. -/
def Roomy (masked : ℕ → ℕ) : List RcMapTable → ℕ → List RcMapTable → Prop
  | _, _, [] => True
  | done, alloc, e :: rest =>
    if masked e.scancode ∈ mapped masked done then
      Roomy masked (done ++ [e]) (resizedAlloc alloc (mapped masked (done ++ [e])).card) rest
    else (mapped masked done).card < alloc / RC_MAP_TABLE_SIZE ∧ Roomy masked (done ++ [e]) alloc rest

instance decidableRoomy (masked : ℕ → ℕ) :
    ∀ done alloc rest, Decidable (Roomy masked done alloc rest)
  | _, _, [] => isTrue trivial
  | done, alloc, e :: rest =>
    have := decidableRoomy masked (done ++ [e]) alloc rest
    have := decidableRoomy masked (done ++ [e])
      (resizedAlloc alloc (mapped masked (done ++ [e])).card) rest
    inferInstanceAs (Decidable (if masked e.scancode ∈ mapped masked done then
      Roomy masked (done ++ [e]) (resizedAlloc alloc (mapped masked (done ++ [e])).card) rest
      else (mapped masked done).card < alloc / RC_MAP_TABLE_SIZE ∧
        Roomy masked (done ++ [e]) alloc rest))

/-! ## The steps of the loop -/

theorem alloc_irResizeTable {rcMap : RcMap} (hsize : rcMap.size = rcMap.alloc / RC_MAP_TABLE_SIZE) :
    ((irResizeTable rcMap true).getD rcMap).alloc = resizedAlloc rcMap.alloc rcMap.len := by
  unfold irResizeTable resizedAlloc
  rw [← hsize]
  dsimp only
  by_cases hfull : rcMap.size = rcMap.len ∧ IR_TAB_MAX_SIZE ≤ rcMap.alloc
  · rw [if_pos hfull, if_pos hfull]
    rfl
  · rw [if_neg hfull, if_neg hfull]
    generalize (if rcMap.len * 3 < rcMap.size ∧ IR_TAB_MIN_SIZE < rcMap.alloc then
      (if rcMap.size = rcMap.len then rcMap.alloc * 2 else rcMap.alloc) / 2
      else if rcMap.size = rcMap.len then rcMap.alloc * 2 else rcMap.alloc) = newalloc
    by_cases hsame : newalloc = rcMap.alloc
    · rw [if_pos hsame, hsame]
      rfl
    · rw [if_neg hsame]
      rfl

theorem alloc_irUpdateMapping {dev : RcDev} {l r : List RcMapTable} {e : RcMapTable}
    (hsize : dev.rcMap.size = dev.rcMap.alloc / RC_MAP_TABLE_SIZE) (hscan : dev.rcMap.scan = l ++ e :: r)
    (keycode : ℕ) :
    (irUpdateMapping dev l.length keycode true).1.rcMap.alloc =
      if e.keycode ≠ KEY_RESERVED then
        resizedAlloc dev.rcMap.alloc (irUpdateMapping dev l.length keycode true).1.rcMap.len
      else dev.rcMap.alloc := by
  rw [irUpdateMapping_eq hscan]
  dsimp only
  by_cases hold : e.keycode ≠ KEY_RESERVED
  · have hupdated : RcMap.size { dev.rcMap with scan := updated l r e keycode } =
        RcMap.alloc { dev.rcMap with scan := updated l r e keycode } / RC_MAP_TABLE_SIZE := hsize
    have hlen : ((irResizeTable { dev.rcMap with scan := updated l r e keycode } true).getD
        { dev.rcMap with scan := updated l r e keycode }).len = (updated l r e keycode).length := by
      unfold irResizeTable RcMap.len
      dsimp only
      split_ifs <;> rfl
    rw [if_pos hold, if_pos hold]
    dsimp only
    rw [hlen]
    exact alloc_irResizeTable hupdated
  · rw [if_neg hold, if_neg hold]

/-- A scancode is established in a table that must not grow: it has an entry, or it gets one where
there is room. -/
theorem irEstablishScancode_fixed (dev : RcDev) (scancode : ℕ) (kmalloc : Bool) :
    (∃ l r e, dev.rcMap.scan = l ++ e :: r ∧ e.scancode = dev.masked scancode ∧
      irEstablishScancode dev scancode false kmalloc = (dev, l.length)) ∨
    (∃ l r, dev.rcMap.scan = l ++ r ∧ (∀ e ∈ l, e.scancode < dev.masked scancode) ∧
      (∀ e ∈ r.head?, dev.masked scancode < e.scancode) ∧
      irEstablishScancode dev scancode false kmalloc =
        if dev.rcMap.size = dev.rcMap.len then (dev, NO_INDEX)
        else ({ dev with rcMap := { dev.rcMap with
          scan := l ++ ⟨dev.masked scancode, KEY_RESERVED⟩ :: r } }, l.length)) := by
  obtain ⟨l, r, hscan, hlen, hl, hhit, hmiss⟩ := irScan_spec dev.rcMap.scan (dev.masked scancode)
  unfold irEstablishScancode
  dsimp only
  by_cases hfound : (irScan dev.rcMap.scan (dev.masked scancode)).2 = true
  · obtain ⟨e, r', rfl, he⟩ := hhit hfound
    exact .inl ⟨l, r', e, hscan, he, by rw [if_pos hfound, hlen]⟩
  · refine .inr ⟨l, r, hscan, hl, hmiss (Bool.eq_false_iff.mpr hfound), ?_⟩
    rw [if_neg hfound]
    by_cases hfull : dev.rcMap.size = dev.rcMap.len
    · rw [if_pos hfull, if_pos hfull]
      rfl
    · rw [if_neg hfull, if_neg hfull]
      dsimp only
      rw [hlen, hscan, RcMap.insertIdx_append]

/-- The number of entries is that of the scancodes that are mapped. -/
theorem Holds.len_eq {dev : RcDev} {masked : ℕ → ℕ} {done : List RcMapTable}
    (h : Holds dev (lastKeycode masked done)) (hnone : NoneReserved dev.rcMap.scan) :
    dev.rcMap.len = (mapped masked done).card := by
  have hnodup : (dev.rcMap.scan.map RcMapTable.scancode).Nodup :=
    List.Pairwise.map _ (fun _ _ hlt => hlt.ne) h.sorted
  have hset : mapped masked done = (dev.rcMap.scan.map RcMapTable.scancode).toFinset := by
    ext s
    rw [mem_mapped, List.mem_toFinset, List.mem_map]
    constructor
    · rintro ⟨k, hk⟩
      exact ⟨⟨s, k⟩, ((h.mem_iff ⟨s, k⟩).mpr hk).1, rfl⟩
    · rintro ⟨e, he, rfl⟩
      exact ⟨e.keycode, (h.mem_iff e).mp ⟨he, hnone e he⟩⟩
  rw [hset, List.toFinset_card_of_nodup hnodup, List.length_map]
  rfl

theorem Holds.mem_mapped_iff {dev : RcDev} {masked : ℕ → ℕ} {done : List RcMapTable}
    (h : Holds dev (lastKeycode masked done)) (hnone : NoneReserved dev.rcMap.scan) (s : ℕ) :
    s ∈ mapped masked done ↔ ∃ e ∈ dev.rcMap.scan, e.scancode = s := by
  rw [mem_mapped]
  constructor
  · rintro ⟨k, hk⟩
    exact ⟨⟨s, k⟩, ((h.mem_iff ⟨s, k⟩).mpr hk).1, rfl⟩
  · rintro ⟨e, he, rfl⟩
    exact ⟨e.keycode, (h.mem_iff e).mp ⟨he, hnone e he⟩⟩

/-- The table behind the entries `done`. -/
structure Loaded (masked : ℕ → ℕ) (done : List RcMapTable) (dev : RcDev) : Prop where
  holds : Holds dev (lastKeycode masked done)
  none : NoneReserved dev.rcMap.scan
  masked_eq : ∀ s, dev.masked s = masked s

theorem masked_congr {dev dev' : RcDev} (h : dev'.scancodeMask = dev.scancodeMask) (s : ℕ) :
    dev'.masked s = dev.masked s := by
  unfold RcDev.masked
  rw [h]

/-- An update of the entry of a scancode. -/
theorem Loaded.update {masked : ℕ → ℕ} {done : List RcMapTable} {dev : RcDev} {l r : List RcMapTable}
    {x : RcMapTable} (e : RcMapTable) (h : Holds dev (lastKeycode masked done)) (hmasked : ∀ s, dev.masked s = masked s)
    (hscan : dev.rcMap.scan = l ++ x :: r) (hothers : NoneReserved (l ++ r))
    (hx : x.scancode = masked e.scancode) (kmalloc : Bool) :
    Loaded masked (done ++ [e]) (irUpdateMapping dev l.length e.keycode kmalloc).1 := by
  obtain ⟨hholds, hnone⟩ := irUpdateMapping_inv h hscan hothers e.keycode kmalloc
  refine ⟨?_, hnone, fun s => ?_⟩
  · rw [lastKeycode_snoc, ← hx]
    exact hholds
  · exact (masked_congr (irUpdateMapping_scancodeMask hscan _ _) s).trans (hmasked s)

/-- **One entry of the map**: it finds its place and is in the table behind its update, or its scancode
is not in the table and the table is full. -/
theorem Loaded.step {masked : ℕ → ℕ} {done : List RcMapTable} {dev : RcDev} (h : Loaded masked done dev)
    (e : RcMapTable) :
    ∃ dev₁ index, irEstablishScancode dev e.scancode false true = (dev₁, index) ∧
      ((index < dev₁.rcMap.len ∧
        (∀ kmalloc, Loaded masked (done ++ [e]) (irUpdateMapping dev₁ index e.keycode kmalloc).1) ∧
        (masked e.scancode ∈ mapped masked done ∧
          (irUpdateMapping dev₁ index e.keycode true).1.rcMap.alloc =
            resizedAlloc dev.rcMap.alloc (mapped masked (done ++ [e])).card ∨
        masked e.scancode ∉ mapped masked done ∧
          (mapped masked done).card < dev.rcMap.alloc / RC_MAP_TABLE_SIZE ∧
          (irUpdateMapping dev₁ index e.keycode true).1.rcMap.alloc = dev.rcMap.alloc)) ∨
      (dev₁.rcMap.len ≤ index ∧ masked e.scancode ∉ mapped masked done ∧
        ¬(mapped masked done).card < dev.rcMap.alloc / RC_MAP_TABLE_SIZE)) := by
  have hfits := h.holds.fits
  have hcard := h.holds.len_eq h.none
  have hmem := h.holds.mem_mapped_iff h.none (masked e.scancode)
  have hinv := irEstablishScancode_inv h.holds h.none e.scancode false true
  rcases irEstablishScancode_fixed dev e.scancode true with
    ⟨l, r, x, hscan, hx, hestablish⟩ | ⟨l, r, hscan, hl, hr, hestablish⟩
  · -- the scancode has an entry
    rw [h.masked_eq] at hx
    have hxmem : x ∈ dev.rcMap.scan := by
      rw [hscan]
      exact List.mem_append_right _ List.mem_cons_self
    have hothers : NoneReserved (l ++ r) := fun y hy => h.none y (by
      rw [hscan]
      exact List.mem_append.mpr ((List.mem_append.mp hy).imp_right (List.mem_cons_of_mem x)))
    have hloaded := fun kmalloc => Loaded.update e h.holds h.masked_eq hscan hothers hx kmalloc
    refine ⟨dev, l.length, hestablish, .inl ⟨?_, hloaded, .inl ⟨hmem.mpr ⟨x, hxmem, hx⟩, ?_⟩⟩⟩
    · unfold RcMap.len
      rw [hscan, List.length_append, List.length_cons]
      omega
    · rw [alloc_irUpdateMapping hfits.size_eq hscan, if_pos (h.none x hxmem),
        (hloaded true).holds.len_eq (hloaded true).none]
  · rw [h.masked_eq] at hl hr hestablish
    have hsorted : Lib.Sorted RcMapTable.scancode r :=
      (List.pairwise_append.mp (hscan ▸ h.holds.sorted : Lib.Sorted RcMapTable.scancode (l ++ r))).2.1
    have hnew : masked e.scancode ∉ mapped masked done := by
      rw [hmem, hscan]
      rintro ⟨x, hx, hxs⟩
      rcases List.mem_append.mp hx with hx | hx
      · exact absurd hxs (hl x hx).ne
      · exact absurd hxs (Sorted.lt_of_head hsorted hr x hx).ne'
    by_cases hfull : dev.rcMap.size = dev.rcMap.len
    · -- the table is full and must not grow
      rw [if_pos hfull] at hestablish
      refine ⟨dev, NO_INDEX, hestablish, .inr ⟨hfits.len_lt_noIndex.le, hnew, ?_⟩⟩
      rw [← hcard, ← hfits.size_eq, hfull]
      exact lt_irrefl _
    · rw [if_neg hfull] at hestablish
      rw [hestablish] at hinv
      have hloaded := fun kmalloc => Loaded.update e hinv.1
        (fun s => (masked_congr rfl s).trans (h.masked_eq s)) rfl (fun y hy => h.none y (hscan ▸ hy)) rfl kmalloc
      refine ⟨_, _, hestablish, .inl ⟨?_, hloaded, .inr ⟨hnew, ?_, ?_⟩⟩⟩
      · show l.length < (l ++ (⟨masked e.scancode, KEY_RESERVED⟩ : RcMapTable) :: r).length
        rw [List.length_append, List.length_cons]
        omega
      · rw [← hcard, ← hfits.size_eq]
        exact lt_of_le_of_ne hfits.len_le (Ne.symm hfull)
      · refine (alloc_irUpdateMapping (l := l) (r := r) (e := ⟨masked e.scancode, KEY_RESERVED⟩) ?_ ?_
          e.keycode).trans (if_neg fun hne => hne rfl)
        · exact hfits.size_eq
        · rfl

/-- **The loop**: where it gets to the end, the table is that of all entries. -/
theorem irSetkeytableLoop_inv {masked : ℕ → ℕ} {kmalloc : ℕ → Bool} {rest : List RcMapTable} {i : ℕ}
    {done : List RcMapTable} {dev dev' : RcDev} (h : Loaded masked done dev)
    (hloop : irSetkeytableLoop kmalloc i dev rest = (dev', .ok ())) : Loaded masked (done ++ rest) dev' := by
  induction rest generalizing i done dev with
  | nil =>
    obtain rfl := (Prod.mk.inj hloop).1
    rw [List.append_nil]
    exact h
  | cons e rest ih =>
    obtain ⟨dev₁, index, hestablish, ⟨hindex, hloaded, -⟩ | ⟨hindex, -⟩⟩ := h.step e
    · unfold irSetkeytableLoop at hloop
      rw [hestablish] at hloop
      dsimp only at hloop
      rw [if_neg (Nat.not_le.mpr hindex)] at hloop
      have hrest := ih (hloaded (kmalloc i)) hloop
      rwa [List.append_assoc, List.singleton_append] at hrest
    · unfold irSetkeytableLoop at hloop
      rw [hestablish] at hloop
      dsimp only at hloop
      rw [if_pos hindex] at hloop
      exact nomatch hloop

/-- The loop gets to the end exactly if every entry finds room. -/
theorem irSetkeytableLoop_ok_iff {masked : ℕ → ℕ} {kmalloc : ℕ → Bool} (hkmalloc : ∀ i, kmalloc i = true)
    (rest : List RcMapTable) (i : ℕ) {done : List RcMapTable} {dev : RcDev} (h : Loaded masked done dev) :
    (irSetkeytableLoop kmalloc i dev rest).2 = .ok () ↔ Roomy masked done dev.rcMap.alloc rest := by
  induction rest generalizing i done dev with
  | nil => exact iff_of_true rfl trivial
  | cons e rest ih =>
    unfold irSetkeytableLoop Roomy
    obtain ⟨dev₁, index, hestablish, ⟨hindex, hloaded, hroom⟩ | ⟨hindex, hnew, hfull⟩⟩ := h.step e
    · rw [hestablish]
      dsimp only
      rw [if_neg (Nat.not_le.mpr hindex), hkmalloc i, ih _ (hloaded true)]
      rcases hroom with ⟨hmem, halloc⟩ | ⟨hmem, hlt, halloc⟩
      · rw [halloc, if_pos hmem]
      · rw [halloc, if_neg hmem, and_iff_right hlt]
    · rw [hestablish]
      dsimp only
      rw [if_pos hindex, if_neg hnew]
      exact iff_of_false (fun hok => nomatch hok) fun hroom => hfull hroom.1

/-! ## The bits beside the table -/

/-- The bits of the keycodes in use have no part in what the table holds. -/
def RcDev.sameTable (dev dev' : RcDev) : Prop :=
  dev'.rcMap = dev.rcMap ∧ dev'.scancodeMask = dev.scancodeMask

theorem sameTable_irUpdateMapping {dev dev' : RcDev} (h : dev.sameTable dev') (index keycode : ℕ)
    (kmalloc : Bool) :
    (irUpdateMapping dev index keycode kmalloc).1.sameTable (irUpdateMapping dev' index keycode kmalloc).1 := by
  obtain ⟨hmap, hmask⟩ := h
  unfold irUpdateMapping RcDev.sameTable
  dsimp only
  rw [hmap]
  split_ifs <;> exact ⟨rfl, hmask⟩

theorem sameTable_irEstablishScancode {dev dev' : RcDev} (h : dev.sameTable dev') (scancode : ℕ)
    (resize kmalloc : Bool) :
    (irEstablishScancode dev scancode resize kmalloc).1.sameTable
        (irEstablishScancode dev' scancode resize kmalloc).1 ∧
      (irEstablishScancode dev' scancode resize kmalloc).2 =
        (irEstablishScancode dev scancode resize kmalloc).2 := by
  obtain ⟨hmap, hmask⟩ := h
  unfold irEstablishScancode RcDev.sameTable
  dsimp only
  rw [masked_congr hmask, hmap]
  generalize (if dev.rcMap.size = dev.rcMap.len then
    if resize then irResizeTable dev.rcMap kmalloc else none else some dev.rcMap) = grown
  split_ifs
  · exact ⟨⟨hmap, hmask⟩, rfl⟩
  · rcases grown with _ | rcMap
    · exact ⟨⟨hmap, hmask⟩, rfl⟩
    · exact ⟨⟨rfl, hmask⟩, rfl⟩

theorem sameTable_irSetkeytableLoop (kmalloc : ℕ → Bool) (scan : List RcMapTable) (i : ℕ) {dev dev' : RcDev}
    (h : dev.sameTable dev') :
    (irSetkeytableLoop kmalloc i dev scan).1.sameTable (irSetkeytableLoop kmalloc i dev' scan).1 ∧
      (irSetkeytableLoop kmalloc i dev' scan).2 = (irSetkeytableLoop kmalloc i dev scan).2 := by
  induction scan generalizing i dev dev' with
  | nil => exact ⟨h, rfl⟩
  | cons e scan ih =>
    unfold irSetkeytableLoop
    obtain ⟨hsame, hindex⟩ := sameTable_irEstablishScancode h e.scancode false true
    dsimp only
    rw [hindex, hsame.1]
    split_ifs
    · exact ⟨hsame, rfl⟩
    · exact ih _ (sameTable_irUpdateMapping hsame _ _ _)

/-! ## The table behind the load -/

/-- A new table. -/
theorem loaded_new {dev : RcDev} {size : ℕ} (hsize : 0 < size) (hmem : size * RC_MAP_TABLE_SIZE ≤ 2 ^ 31)
    (hcreate : irCreateTable size true = some dev.rcMap) (hkeybit : ∀ k, dev.keybit k = false) :
    Loaded dev.masked [] dev := by
  obtain ⟨hfits, hscan⟩ := fits_irCreateTable hsize hmem hcreate
  refine ⟨⟨hfits, hscan ▸ Lib.sorted_nil _, fun e => ?_, fun k _ => ?_⟩, fun e he => ?_, fun _ => rfl⟩
  · rw [hscan]
    exact ⟨fun h => absurd h.1 List.not_mem_nil, fun h => absurd h.1 (Option.some_ne_none _).symm⟩
  · rw [hscan, hkeybit k]
    refine ⟨fun h => absurd h Bool.false_ne_true, fun h => ?_⟩
    obtain ⟨e, he, -⟩ := h
    exact absurd he List.not_mem_nil
  · rw [hscan] at he
    exact absurd he List.not_mem_nil

theorem alloc_irCreateTable {size : ℕ} (hmem : size * RC_MAP_TABLE_SIZE ≤ 2 ^ 31) :
    roundupPowOfTwo (size * RC_MAP_TABLE_SIZE) % 2 ^ 32 = roundupPowOfTwo (size * RC_MAP_TABLE_SIZE) := by
  have hlt : roundupPowOfTwo (size * RC_MAP_TABLE_SIZE) ≤ 2 ^ 31 :=
    Nat.pow_le_pow_right Nat.two_pos (Nat.clog_le_of_le_pow hmem)
  exact Nat.mod_eq_of_lt (by omega)

/-- A map in which no scancode is repeated finds room for all of its entries. -/
theorem roomy_of_nodup {masked : ℕ → ℕ} {done rest : List RcMapTable} {alloc : ℕ}
    (hnodup : ((done ++ rest).map fun e => masked e.scancode).Nodup)
    (halloc : (done ++ rest).length * RC_MAP_TABLE_SIZE ≤ alloc) : Roomy masked done alloc rest := by
  induction rest generalizing done with
  | nil => trivial
  | cons e rest ih =>
    have hnew : masked e.scancode ∉ mapped masked done := by
      intro hmem
      have hdone := List.mem_toFinset.mp (Finset.mem_filter.mp hmem).1
      rw [List.map_append, List.map_cons, List.nodup_append] at hnodup
      exact hnodup.2.2 _ hdone _ List.mem_cons_self rfl
    have hcard : (mapped masked done).card ≤ done.length := by
      refine (Finset.card_filter_le _ _).trans ((List.toFinset_card_le _).trans ?_)
      rw [List.length_map]
    unfold Roomy
    rw [if_neg hnew]
    refine ⟨?_, ih ?_ ?_⟩
    · rw [List.length_append, List.length_cons] at halloc
      unfold RC_MAP_TABLE_SIZE at halloc ⊢
      omega
    · rwa [List.append_assoc, List.singleton_append]
    · rwa [List.append_assoc, List.singleton_append]

/-- A device without a bit for any keycode. -/
def RcDev.noKeybit (dev : RcDev) : RcDev := { dev with keybit := fun _ => false }

theorem sameTable_noKeybit (dev : RcDev) : dev.sameTable dev.noKeybit := ⟨rfl, rfl⟩

/-- What a load gives, by the room that the entries find. -/
theorem irSetkeytable_roomy (dev : RcDev) (scan : List RcMapTable) {kmalloc : ℕ → Bool}
    (hmem : scan.length * RC_MAP_TABLE_SIZE ≤ 2 ^ 31) (hkmalloc : ∀ i, kmalloc i = true) :
    (Roomy dev.masked [] (roundupPowOfTwo (scan.length * RC_MAP_TABLE_SIZE)) scan →
      (irSetkeytable dev scan kmalloc).2 = .ok ()) ∧
    ((irSetkeytable dev scan kmalloc).2 = .ok () → ∀ s,
      (irLookupByScancode (irSetkeytable dev scan kmalloc).1.rcMap s <
          (irSetkeytable dev scan kmalloc).1.rcMap.len ↔
        ∃ k, lastKeycode dev.masked scan s = some k ∧ k ≠ KEY_RESERVED ∧ k ≠ KEY_UNKNOWN) ∧
      ∀ k, lastKeycode dev.masked scan s = some k → k ≠ KEY_RESERVED → k ≠ KEY_UNKNOWN →
        rcGKeycodeFromTable (irSetkeytable dev scan kmalloc).1 s = k) := by
  obtain ⟨rcMap, hcreate⟩ : ∃ rcMap, irCreateTable scan.length true = some rcMap := ⟨_, rfl⟩
  have halloc : rcMap.alloc = roundupPowOfTwo (scan.length * RC_MAP_TABLE_SIZE) := by
    obtain rfl := Option.some.inj hcreate
    exact alloc_irCreateTable hmem
  have hscan : rcMap.scan = [] := by
    obtain rfl := Option.some.inj hcreate
    rfl
  have hset : irSetkeytable dev scan kmalloc =
      match irSetkeytableLoop kmalloc 2 { dev with rcMap := rcMap } scan with
      | (dev, .ok ()) => (dev, .ok ())
      | (dev, .error e) => ({ dev with rcMap := irFreeTable dev.rcMap }, .error e) := by
    unfold irSetkeytable
    rw [hkmalloc 0, hkmalloc 1, if_neg (by decide), hcreate]
  rcases scan with _ | ⟨e, scan⟩
  · -- nothing to load
    rw [hset]
    refine ⟨fun _ => rfl, fun _ s => ⟨iff_of_false ?_ ?_, fun k hk => nomatch hk⟩⟩
    · show ¬irLookupByScancode rcMap s < rcMap.len
      unfold RcMap.len
      rw [hscan]
      exact Nat.not_lt_zero _
    · rintro ⟨k, hk, -⟩
      exact nomatch hk
  generalize hentries : e :: scan = entries at *
  have hsize : 0 < entries.length := by
    rw [← hentries]
    exact Nat.succ_pos _
  have hnew := @loaded_new (RcDev.noKeybit { dev with rcMap := rcMap }) entries.length hsize hmem hcreate
    fun _ => rfl
  have hsame := sameTable_irSetkeytableLoop kmalloc entries 2
    (sameTable_noKeybit { dev with rcMap := rcMap })
  have hok := irSetkeytableLoop_ok_iff hkmalloc entries 2 hnew
  rw [hsame.2] at hok
  rcases hloop : irSetkeytableLoop kmalloc 2 { dev with rcMap := rcMap } entries with ⟨dev₁, err | ⟨⟩⟩
  · rw [hloop] at hset hok
    rw [hset]
    refine ⟨fun hroom => ?_, fun h => nomatch h⟩
    have hroomy : Roomy dev.masked [] rcMap.alloc entries := halloc ▸ hroom
    exact nomatch hok.mpr hroomy
  · rw [hloop] at hset hsame
    rw [hset]
    refine ⟨fun _ => rfl, fun _ s => ?_⟩
    rcases hloop' : irSetkeytableLoop kmalloc 2 (RcDev.noKeybit { dev with rcMap := rcMap }) entries with
      ⟨dev₂, res⟩
    rw [hloop'] at hsame
    obtain ⟨⟨hmap, -⟩, rfl⟩ := hsame
    have hloaded := irSetkeytableLoop_inv hnew hloop'
    have hlookup := hloaded.holds.lookup hloaded.none s
    dsimp only at hmap
    unfold rcGKeycodeFromTable at hlookup ⊢
    rw [hmap] at hlookup
    exact ⟨hlookup.1, fun k hk hres hunk => hlookup.2 k hk ⟨hres, hunk⟩⟩

/-- **A map that is loaded**: the load succeeds where every entry finds room, which they all do where no scancode is
repeated; and a table that has been loaded holds the last keycode of each scancode, which is looked up unless it is one
that deletes. -/
theorem irSetkeytable_loads (dev : RcDev) (scan : List RcMapTable) {kmalloc : ℕ → Bool}
    (hmem : scan.length * RC_MAP_TABLE_SIZE ≤ 2 ^ 31) (hkmalloc : ∀ i, kmalloc i = true) :
    (Roomy dev.masked [] (roundupPowOfTwo (scan.length * RC_MAP_TABLE_SIZE)) scan →
      (irSetkeytable dev scan kmalloc).2 = .ok ()) ∧
    ((scan.map fun e => dev.masked e.scancode).Nodup → (irSetkeytable dev scan kmalloc).2 = .ok ()) ∧
    ((irSetkeytable dev scan kmalloc).2 = .ok () → ∀ s,
      (irLookupByScancode (irSetkeytable dev scan kmalloc).1.rcMap s <
          (irSetkeytable dev scan kmalloc).1.rcMap.len ↔
        ∃ k, lastKeycode dev.masked scan s = some k ∧ k ≠ KEY_RESERVED ∧ k ≠ KEY_UNKNOWN) ∧
      ∀ k, lastKeycode dev.masked scan s = some k → k ≠ KEY_RESERVED → k ≠ KEY_UNKNOWN →
        rcGKeycodeFromTable (irSetkeytable dev scan kmalloc).1 s = k) := by
  obtain ⟨hroomy, hlookup⟩ := irSetkeytable_roomy dev scan hmem hkmalloc
  exact ⟨hroomy, fun hnodup => hroomy (roomy_of_nodup hnodup (Nat.le_pow_clog Nat.one_lt_two _)), hlookup⟩

/-- Two scancodes, the first of them twice. -/
def twoKeys : List RcMapTable := [⟨5, 30⟩, ⟨3, 48⟩, ⟨5, 31⟩]

theorem irSetkeytable_loads_twoKeys :
    (irSetkeytable (RcDev.new ⟨[], 0, 0⟩) twoKeys.tail fun _ => true).2 = .ok () ∧
    (irSetkeytable (RcDev.new ⟨[], 0, 0⟩) twoKeys fun _ => true).2 = .ok () ∧
      rcGKeycodeFromTable (irSetkeytable (RcDev.new ⟨[], 0, 0⟩) twoKeys fun _ => true).1 5 = 31 := by
  obtain ⟨hok, -, hlookup⟩ := irSetkeytable_loads (RcDev.new ⟨[], 0, 0⟩) twoKeys (by decide) fun _ => rfl
  have honce := (irSetkeytable_loads (RcDev.new ⟨[], 0, 0⟩) twoKeys.tail (by decide) fun _ => rfl).2.1
  have hload := hok (by decide +kernel)
  exact ⟨honce (by decide +kernel), hload, (hlookup hload 5).2 31 (by decide +kernel) (by decide) (by decide)⟩

/-- A scancode with two keycodes in front of more scancodes than the halved table has room for. -/
def repeatedFirst : List RcMapTable := ⟨1, 30⟩ :: (List.range 34).map fun i => ⟨i + 1, 31⟩

/-- A scancode that is mapped to `KEY_UNKNOWN` is not in the table; and a repeated scancode in front
keeps the last entries out of it. -/
theorem irSetkeytable_keyUnknown :
    (irSetkeytable (RcDev.new ⟨[], 0, 0⟩) [⟨1, KEY_UNKNOWN⟩] fun _ => true).2.isOk = true ∧
    lastKeycode (RcDev.new ⟨[], 0, 0⟩).masked [⟨1, KEY_UNKNOWN⟩] 1 = some KEY_UNKNOWN ∧
    rcGKeycodeFromTable (irSetkeytable (RcDev.new ⟨[], 0, 0⟩) [⟨1, KEY_UNKNOWN⟩] fun _ => true).1 1 ≠
      KEY_UNKNOWN ∧
    (irSetkeytable (RcDev.new ⟨[], 0, 0⟩) repeatedFirst fun _ => true).2.isOk = false := by
  refine ⟨by decide +kernel, by decide +kernel, by decide +kernel, by decide +kernel⟩

end Rc
end TbsMedia
