import Mathlib

/-!
# Sorted tables and binary search

A table is a list of entries whose keys grow strictly.  `bsearch` halves the part of it that is left
until it hits the key.

* `bsearch_eq_some_iff`: on a sorted table it finds the entry with the key, and only that.
* `Sorted.insert`, `Sorted.eraseIdx`, `Sorted.set`: the updates that keep the order.
-/

namespace TbsMedia
namespace Lib

variable {α κ : Type*}

/-! ## Binary search -/

/-- The loop of `bsearch` over the `num` entries behind `base`; `cmp` compares the key with an entry. -/
def bsearchLoop (cmp : α → Ordering) (table : List α) (base num : ℕ) : Option ℕ :=
  if num = 0 then none
  else
    match table[base + num / 2]? with
    | none => none
    | some e =>
      match cmp e with
      | .eq => some (base + num / 2)
      | .gt => bsearchLoop cmp table (base + num / 2 + 1) ((num - 1) / 2)
      | .lt => bsearchLoop cmp table base (num / 2)
termination_by num
decreasing_by all_goals omega

/-- `bsearch`: the index of the entry that compares as equal. -/
def bsearch (cmp : α → Ordering) (table : List α) : Option ℕ :=
  bsearchLoop cmp table 0 table.length

theorem bsearchLoop_sound {cmp : α → Ordering} {table : List α} {base num i : ℕ}
    (h : bsearchLoop cmp table base num = some i) : ∃ e, table[i]? = some e ∧ cmp e = .eq := by
  fun_induction bsearchLoop cmp table base num with
  | case1 base => exact nomatch h
  | case2 base num hnum hnone => exact nomatch h
  | case3 base num hnum e he hcmp =>
    obtain rfl := Option.some.inj h
    exact ⟨e, he, hcmp⟩
  | case4 base num hnum e he hcmp ih => exact ih h
  | case5 base num hnum e he hcmp ih => exact ih h

/-! ## Sorted tables -/

variable [LinearOrder κ] {key : α → κ}

/-- The keys grow strictly. -/
def Sorted (key : α → κ) (table : List α) : Prop :=
  table.Pairwise fun a b => key a < key b

theorem sorted_nil (key : α → κ) : Sorted key [] := List.Pairwise.nil

theorem Sorted.lt {table : List α} (h : Sorted key table) {i j : ℕ} {a b : α} (hij : i < j)
    (ha : table[i]? = some a) (hb : table[j]? = some b) : key a < key b := by
  obtain ⟨hi, rfl⟩ := List.getElem?_eq_some_iff.mp ha
  obtain ⟨hj, rfl⟩ := List.getElem?_eq_some_iff.mp hb
  exact List.pairwise_iff_getElem.mp h i j hi hj hij

/-- A key is in the table once. -/
theorem Sorted.index_inj {table : List α} (h : Sorted key table) {i j : ℕ} {a b : α}
    (ha : table[i]? = some a) (hb : table[j]? = some b) (hkey : key a = key b) : i = j := by
  rcases lt_trichotomy i j with hij | hij | hij
  · exact absurd hkey (h.lt hij ha hb).ne
  · exact hij
  · exact absurd hkey (h.lt hij hb ha).ne'

/-- The key is among the `num` entries behind `base`, and the search ends at it. -/
theorem bsearchLoop_complete {table : List α} (h : Sorted key table) {k : κ} {base num i : ℕ} {a : α}
    (hlen : base + num ≤ table.length) (ha : table[i]? = some a) (hk : key a = k) (hbase : base ≤ i)
    (hnum : i < base + num) : bsearchLoop (fun e => compare k (key e)) table base num = some i := by
  fun_induction bsearchLoop (fun e => compare k (key e)) table base num with
  | case1 base => omega
  | case2 base num hne hnone =>
    have := List.getElem?_eq_none_iff.mp hnone
    omega
  | case3 base num hne e he hcmp =>
    exact congrArg some (h.index_inj he ha ((compare_eq_iff_eq.mp hcmp).symm.trans hk.symm))
  | case4 base num hne e he hcmp ih =>
    have hlt : key e < key a := hk ▸ compare_gt_iff_gt.mp hcmp
    have hi : base + num / 2 < i := by
      by_contra hle
      rcases Nat.lt_or_eq_of_le (Nat.not_lt.mp hle) with hi | rfl
      · exact absurd (h.lt hi ha he) hlt.not_gt
      · exact absurd (congrArg key (Option.some.inj (he.symm.trans ha))) hlt.ne
    exact ih (by omega) hi (by omega)
  | case5 base num hne e he hcmp ih =>
    have hlt : key a < key e := hk ▸ compare_lt_iff_lt.mp hcmp
    have hi : i < base + num / 2 := by
      by_contra hle
      rcases Nat.lt_or_eq_of_le (Nat.not_lt.mp hle) with hi | rfl
      · exact absurd (h.lt hi he ha) hlt.not_gt
      · exact absurd (congrArg key (Option.some.inj (he.symm.trans ha))) hlt.ne'
    exact ih (by omega) hbase hi

/-- **Binary search finds** the entry with the key, and no other. -/
theorem bsearch_eq_some_iff {table : List α} (h : Sorted key table) {k : κ} {i : ℕ} :
    bsearch (fun e => compare k (key e)) table = some i ↔
      ∃ e, table[i]? = some e ∧ key e = k := by
  constructor
  · intro hi
    obtain ⟨e, he, hcmp⟩ := bsearchLoop_sound hi
    exact ⟨e, he, (compare_eq_iff_eq.mp hcmp).symm⟩
  · rintro ⟨e, he, hk⟩
    obtain ⟨hi, -⟩ := List.getElem?_eq_some_iff.mp he
    exact bsearchLoop_complete h (by omega) he hk (Nat.zero_le i) (by omega)

/-! ## Updates -/

/-- An entry goes between those with smaller and those with larger keys. -/
theorem Sorted.insert {l r : List α} {a : α} (h : Sorted key (l ++ r))
    (hl : ∀ e ∈ l, key e < key a) (hr : ∀ e ∈ r, key a < key e) : Sorted key (l ++ a :: r) := by
  obtain ⟨hl', hr', hlr⟩ := List.pairwise_append.mp h
  refine List.pairwise_append.mpr ⟨hl', List.pairwise_cons.mpr ⟨hr, hr'⟩, fun e he b hb => ?_⟩
  rcases List.mem_cons.mp hb with rfl | hb
  · exact hl e he
  · exact hlr e he b hb

theorem Sorted.erase {l r : List α} {a : α} (h : Sorted key (l ++ a :: r)) : Sorted key (l ++ r) :=
  List.Pairwise.sublist (List.Sublist.append (List.Sublist.refl l) (List.sublist_cons_self a r)) h

/-- An entry gets another value under its key. -/
theorem Sorted.replace {l r : List α} {a b : α} (h : Sorted key (l ++ a :: r)) (hkey : key b = key a) :
    Sorted key (l ++ b :: r) := by
  obtain ⟨-, hr, hlr⟩ := List.pairwise_append.mp h
  refine h.erase.insert (fun e he => ?_) (fun e he => ?_)
  · exact hkey ▸ hlr e he a List.mem_cons_self
  · exact hkey ▸ (List.pairwise_cons.mp hr).1 e he

/-- The other entries have other keys. -/
theorem Sorted.key_ne {l r : List α} {a e : α} (h : Sorted key (l ++ a :: r)) (he : e ∈ l ++ r) :
    key e ≠ key a := by
  obtain ⟨-, hr, hlr⟩ := List.pairwise_append.mp h
  rcases List.mem_append.mp he with he | he
  · exact (hlr e he a List.mem_cons_self).ne
  · exact ((List.pairwise_cons.mp hr).1 e he).ne'

end Lib
end TbsMedia
