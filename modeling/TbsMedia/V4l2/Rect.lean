import Mathlib

/-!
# Rectangles

The helpers of `v4l2-rect.h` add a signed position and an unsigned size and compare the sums as unsigned numbers.

* `v4l2RectMapInside`, `v4l2RectIntersect`, `v4l2RectOverlap`: the helpers, over variables of 32 bits.
* `mapsInside_iff`: a rectangle is moved into the boundary where the boundary starts at 0, and elsewhere only where
  the boundary reaches back to its own size.
* `meets_iff`: overlap and intersection agree for rectangles on one side of 0, and for some that are apart.
-/

namespace TbsMedia
namespace V4l2

/-! ## The code -/

/-- `struct v4l2_rect`: the positions are read as signed numbers, the sizes as unsigned ones. -/
structure V4l2Rect where
  left : BitVec 32
  top : BitVec 32
  width : BitVec 32
  height : BitVec 32
  deriving DecidableEq

/-- `v4l2_rect_set_max_size`. -/
def v4l2RectSetMaxSize (r maxSize : V4l2Rect) : V4l2Rect :=
  let r := { r with width := if r.width > maxSize.width then maxSize.width else r.width }
  { r with height := if r.height > maxSize.height then maxSize.height else r.height }

/-- `v4l2_rect_map_inside`. -/
def v4l2RectMapInside (r boundary : V4l2Rect) : V4l2Rect :=
  let r := v4l2RectSetMaxSize r boundary
  let r := { r with left := if r.left.slt boundary.left then boundary.left else r.left }
  let r := { r with top := if r.top.slt boundary.top then boundary.top else r.top }
  let r := { r with left := if r.left + r.width > boundary.width then boundary.width - r.width else r.left }
  { r with top := if r.top + r.height > boundary.height then boundary.height - r.height else r.top }

/-- `max` of signed numbers. -/
def smax (x y : BitVec 32) : BitVec 32 := if y.slt x then x else y

/-- `min` of unsigned numbers. -/
def umin (x y : BitVec 32) : BitVec 32 := if x < y then x else y

/-- `v4l2_rect_intersect`. -/
def v4l2RectIntersect (r₁ r₂ : V4l2Rect) : V4l2Rect :=
  let top := smax r₁.top r₂.top
  let left := smax r₁.left r₂.left
  let bottom := umin (r₁.top + r₁.height) (r₂.top + r₂.height)
  let right := umin (r₁.left + r₁.width) (r₂.left + r₂.width)
  ⟨left, top, smax 0 (right - left), smax 0 (bottom - top)⟩

/-- `v4l2_rect_overlap`. -/
def v4l2RectOverlap (r₁ r₂ : V4l2Rect) : Bool :=
  if r₁.left ≥ r₂.left + r₂.width ∨ r₂.left ≥ r₁.left + r₁.width then false
  else if r₁.top ≥ r₂.top + r₂.height ∨ r₂.top ≥ r₁.top + r₁.height then false
  else true

/-! ## Directions -/

/-- A rectangle in one direction. -/
structure Side where
  pos : BitVec 32
  size : BitVec 32

namespace V4l2Rect

def horizontal (r : V4l2Rect) : Side := ⟨r.left, r.width⟩

def vertical (r : V4l2Rect) : Side := ⟨r.top, r.height⟩

end V4l2Rect

namespace Side

def lo (s : Side) : ℤ := s.pos.toInt

def len (s : Side) : ℤ := s.size.toNat

def hi (s : Side) : ℤ := s.lo + s.len

/-- There is something in it, and its edges are signed numbers of 31 bits. -/
structure Valid (s : Side) : Prop where
  nonempty : 0 < s.len
  le_lo : -2 ^ 30 ≤ s.lo
  hi_lt : s.hi < 2 ^ 30

/-- One is inside the other. -/
def Inside (s t : Side) : Prop := t.lo ≤ s.lo ∧ s.hi ≤ t.hi

/-- `v4l2_rect_map_inside` in one direction. -/
def map (s b : Side) : Side :=
  let size := if s.size > b.size then b.size else s.size
  let pos := if s.pos.slt b.pos then b.pos else s.pos
  ⟨if pos + size > b.size then b.size - size else pos, size⟩

/-- `v4l2_rect_intersect` in one direction. -/
def intersect (s t : Side) : Side :=
  let pos := smax s.pos t.pos
  ⟨pos, smax 0 (umin (s.pos + s.size) (t.pos + t.size) - pos)⟩

/-- `v4l2_rect_overlap` in one direction. -/
def overlap (s t : Side) : Prop := s.pos < t.pos + t.size ∧ t.pos < s.pos + s.size

end Side

theorem horizontal_mapInside (r b : V4l2Rect) :
    (v4l2RectMapInside r b).horizontal = r.horizontal.map b.horizontal := rfl

theorem vertical_mapInside (r b : V4l2Rect) : (v4l2RectMapInside r b).vertical = r.vertical.map b.vertical := rfl

theorem horizontal_intersect (r₁ r₂ : V4l2Rect) :
    (v4l2RectIntersect r₁ r₂).horizontal = r₁.horizontal.intersect r₂.horizontal := rfl

theorem vertical_intersect (r₁ r₂ : V4l2Rect) :
    (v4l2RectIntersect r₁ r₂).vertical = r₁.vertical.intersect r₂.vertical := rfl

theorem overlap_iff (r₁ r₂ : V4l2Rect) : v4l2RectOverlap r₁ r₂ = true ↔
    r₁.horizontal.overlap r₂.horizontal ∧ r₁.vertical.overlap r₂.vertical := by
  unfold v4l2RectOverlap Side.overlap V4l2Rect.horizontal V4l2Rect.vertical
  dsimp only
  split
  · rename_i h
    refine iff_of_false Bool.false_ne_true fun ⟨hx, _⟩ => ?_
    exact h.elim (BitVec.not_le.mpr hx.1) (BitVec.not_le.mpr hx.2)
  · rename_i hx
    rw [not_or, ge_iff_le, ge_iff_le, BitVec.not_le, BitVec.not_le] at hx
    split
    · rename_i h
      refine iff_of_false Bool.false_ne_true fun ⟨_, hy⟩ => ?_
      exact h.elim (BitVec.not_le.mpr hy.1) (BitVec.not_le.mpr hy.2)
    · rename_i hy
      rw [not_or, ge_iff_le, ge_iff_le, BitVec.not_le, BitVec.not_le] at hy
      exact iff_of_true rfl ⟨hx, hy⟩

/-- A rectangle is what it is in its two directions. -/
theorem rect_ext {r s : V4l2Rect} (hx : r.horizontal = s.horizontal) (hy : r.vertical = s.vertical) : r = s := by
  obtain ⟨hleft, hwidth⟩ := Side.mk.inj hx
  obtain ⟨htop, hheight⟩ := Side.mk.inj hy
  cases r
  cases s
  obtain rfl := hleft
  obtain rfl := hwidth
  obtain rfl := htop
  obtain rfl := hheight
  rfl

/-! ## Sums and comparisons -/

variable {s t b : Side}

theorem toInt_smax (x y : BitVec 32) : (smax x y).toInt = max x.toInt y.toInt := by
  unfold smax
  by_cases h : y.toInt < x.toInt
  · rw [if_pos (BitVec.slt_iff_toInt_lt.mpr h)]
    omega
  · rw [if_neg fun hlt => h (BitVec.slt_iff_toInt_lt.mp hlt)]
    omega

/-- A position and its reading. -/
theorem pos_cases (x : BitVec 32) : (0 ≤ x.toInt ∧ (x.toNat : ℤ) = x.toInt) ∨
    (x.toInt < 0 ∧ (x.toNat : ℤ) = x.toInt + 2 ^ 32) := by
  have hlt := x.isLt
  rw [BitVec.toInt_eq_toNat_cond]
  split <;> omega

theorem toInt_of_toNat_emod {x : BitVec 32} {y : ℤ} (h : (x.toNat : ℤ) = y % 2 ^ 32) (hlo : -2 ^ 31 ≤ y)
    (hhi : y < 2 ^ 31) : x.toInt = y := by
  rcases pos_cases x with ⟨hsign, hx⟩ | ⟨hsign, hx⟩
  · have := x.isLt
    have hsmall : 2 * x.toNat < 2 ^ 32 := by
      by_contra hge
      have := BitVec.toInt_lt (x := x)
      omega
    omega
  · have := BitVec.le_toInt x
    omega

/-- The sum of position and size is the edge on the other side. -/
theorem toInt_hi (hs : s.Valid) : (s.pos + s.size).toInt = s.hi := by
  obtain ⟨hne, hlo, hhi⟩ := hs
  unfold Side.hi Side.lo Side.len at *
  refine toInt_of_toNat_emod ?_ (by omega) (by omega)
  rw [BitVec.toNat_add]
  rcases pos_cases s.pos with ⟨-, hx⟩ | ⟨-, hx⟩
  · omega
  · omega

theorem side_ext (hlo : s.lo = t.lo) (hlen : s.len = t.len) : s = t := by
  cases s
  cases t
  obtain rfl := BitVec.eq_of_toInt_eq hlo
  obtain rfl := BitVec.eq_of_toNat_eq (Int.ofNat.inj hlen)
  rfl

/-! ## Moving inside -/

theorem map_len (s b : Side) : (s.map b).len = min s.len b.len := by
  unfold Side.map Side.len
  dsimp only
  by_cases h : s.size > b.size
  · rw [if_pos h]
    have : b.size.toNat < s.size.toNat := h
    omega
  · rw [if_neg h]
    have : ¬ b.size.toNat < s.size.toNat := h
    omega

/-- **Where a rectangle is put**: at the boundary or where it was, unless the sum of position and size is negative or
more than the size of the boundary. -/
theorem map_lo (hs : s.Valid) (hb : b.Valid) : (s.map b).lo =
    if 0 ≤ max s.lo b.lo + min s.len b.len ∧ max s.lo b.lo + min s.len b.len ≤ b.len then max s.lo b.lo
    else b.len - min s.len b.len := by
  have hlen := map_len s b
  obtain ⟨hsne, hsLo, hsHi⟩ := hs
  obtain ⟨hbne, hbLo, hbHi⟩ := hb
  unfold Side.hi at hsHi hbHi
  unfold Side.map Side.len at hlen
  unfold Side.map Side.lo Side.len at *
  dsimp only at hlen ⊢
  generalize (if s.size > b.size then b.size else s.size) = size at hlen
  have hpos : (if s.pos.slt b.pos then b.pos else s.pos).toInt = max s.pos.toInt b.pos.toInt :=
    (toInt_smax b.pos s.pos).trans (max_comm _ _)
  generalize (if s.pos.slt b.pos then b.pos else s.pos) = pos at hpos
  rw [← hpos, ← hlen]
  have hsum : ((pos + size).toNat : ℤ) = (pos.toInt + size.toNat) % 2 ^ 32 := by
    rw [BitVec.toNat_add]
    rcases pos_cases pos with ⟨-, hx⟩ | ⟨-, hx⟩
    · omega
    · omega
  have hgt : pos + size > b.size ↔ ¬ (0 ≤ pos.toInt + size.toNat ∧ pos.toInt + size.toNat ≤ b.size.toNat) := by
    change b.size.toNat < (pos + size).toNat ↔ _
    omega
  by_cases h : 0 ≤ pos.toInt + size.toNat ∧ pos.toInt + size.toNat ≤ b.size.toNat
  · rw [if_pos h, if_neg fun hover => hgt.mp hover h]
  · rw [if_neg h, if_pos (hgt.mpr h)]
    refine toInt_of_toNat_emod ?_ (by omega) (by omega)
    rw [BitVec.toNat_sub]
    have := size.isLt
    have := b.size.isLt
    omega

/-- Moving a rectangle puts it inside, leaves it where it is if it was, and changes nothing the second time. -/
structure MapsInside (r b : V4l2Rect) : Prop where
  inside : (v4l2RectMapInside r b).horizontal.Inside b.horizontal ∧ (v4l2RectMapInside r b).vertical.Inside b.vertical
  kept : r.horizontal.Inside b.horizontal ∧ r.vertical.Inside b.vertical → v4l2RectMapInside r b = r
  idempotent : v4l2RectMapInside (v4l2RectMapInside r b) b = v4l2RectMapInside r b

/-- In one direction: the boundary starts at 0; or it starts later, and from there its own size leaves room for the
rectangle; or it starts earlier, and the rectangle ends neither below 0 nor behind the boundary once it starts in it. -/
def Reaches (s b : Side) : Prop :=
  b.lo = 0 ∨ (0 < b.lo ∧ b.lo + min s.len b.len ≤ b.len) ∨
    (b.lo < 0 ∧ 0 ≤ max s.lo b.lo + min s.len b.len ∧ max s.lo b.lo + min s.len b.len ≤ b.hi)

/-- Both directions have room, and where a rectangle is inside a boundary that starts later than 0 it ends within the
size of the boundary. -/
def HasPlace (r b : V4l2Rect) : Prop :=
  Reaches r.horizontal b.horizontal ∧ Reaches r.vertical b.vertical ∧
    (r.horizontal.Inside b.horizontal ∧ r.vertical.Inside b.vertical →
      (0 < b.horizontal.lo → r.horizontal.hi ≤ b.horizontal.len) ∧
      (0 < b.vertical.lo → r.vertical.hi ≤ b.vertical.len))

theorem inside_map_iff (hs : s.Valid) (hb : b.Valid) : (s.map b).Inside b ↔ Reaches s b := by
  have hlo := map_lo hs hb
  have hlen := map_len s b
  have hsne := hs.nonempty
  have hbne := hb.nonempty
  unfold Side.Inside Reaches Side.hi
  rw [hlo, hlen]
  split <;> omega

theorem map_eq_self_iff (hs : s.Valid) (hb : b.Valid) (hin : s.Inside b) (hreach : Reaches s b) :
    s.map b = s ↔ (0 < b.lo → s.hi ≤ b.len) := by
  have hlo := map_lo hs hb
  have hlen := map_len s b
  have hsne := hs.nonempty
  have hbne := hb.nonempty
  obtain ⟨hge, hle⟩ := hin
  unfold Reaches Side.hi at *
  constructor
  · intro h hpos
    rw [h] at hlo
    split at hlo <;> omega
  · intro h
    refine side_ext ?_ ?_
    · rw [hlo]
      split <;> omega
    · rw [hlen]
      omega

theorem map_map (hs : s.Valid) (hb : b.Valid) (hreach : Reaches s b) : (s.map b).map b = s.map b := by
  have hlo := map_lo hs hb
  have hlen := map_len s b
  have hin := (inside_map_iff hs hb).mpr hreach
  have hsne := hs.nonempty
  have hbne := hb.nonempty
  have hvalid : (s.map b).Valid := by
    have := hb.le_lo
    have := hb.hi_lt
    obtain ⟨hge, hle⟩ := hin
    exact ⟨by omega, by omega, by omega⟩
  have hlo' := map_lo hvalid hb
  have hlen' := map_len (s.map b) b
  refine side_ext ?_ ?_
  · rw [hlo', hlen]
    unfold Side.Inside Side.hi at hin
    rw [hlen] at hin
    split at hlo <;> split <;> omega
  · rw [hlen', hlen]
    omega

/-- **Exactly when a rectangle is moved inside.** -/
theorem mapsInside_iff {r b : V4l2Rect} (hx : r.horizontal.Valid) (hy : r.vertical.Valid) (hbx : b.horizontal.Valid)
    (hby : b.vertical.Valid) : MapsInside r b ↔ HasPlace r b := by
  constructor
  · intro h
    obtain ⟨hinX, hinY⟩ := h.inside
    rw [horizontal_mapInside, inside_map_iff hx hbx] at hinX
    rw [vertical_mapInside, inside_map_iff hy hby] at hinY
    refine ⟨hinX, hinY, fun hin => ?_⟩
    have hsame := h.kept hin
    refine ⟨(map_eq_self_iff hx hbx hin.1 hinX).mp ?_, (map_eq_self_iff hy hby hin.2 hinY).mp ?_⟩
    · rw [← horizontal_mapInside, hsame]
    · rw [← vertical_mapInside, hsame]
  · rintro ⟨hreachX, hreachY, hkept⟩
    refine ⟨?_, fun hin => ?_, ?_⟩
    · rw [horizontal_mapInside, vertical_mapInside]
      exact ⟨(inside_map_iff hx hbx).mpr hreachX, (inside_map_iff hy hby).mpr hreachY⟩
    · obtain ⟨hkeptX, hkeptY⟩ := hkept hin
      refine rect_ext ?_ ?_
      · rw [horizontal_mapInside]
        exact (map_eq_self_iff hx hbx hin.1 hreachX).mpr hkeptX
      · rw [vertical_mapInside]
        exact (map_eq_self_iff hy hby hin.2 hreachY).mpr hkeptY
    · refine rect_ext ?_ ?_
      · rw [horizontal_mapInside, horizontal_mapInside]
        exact map_map hx hbx hreachX
      · rw [vertical_mapInside, vertical_mapInside]
        exact map_map hy hby hreachY

/-! ## Overlap and intersection -/

/-- The smaller one of two numbers of one sign, and the larger one of two of different signs. -/
theorem toInt_umin (x y : BitVec 32) :
    (umin x y).toInt = if 0 ≤ x.toInt ↔ 0 ≤ y.toInt then min x.toInt y.toInt else max x.toInt y.toInt := by
  have hpick : (umin x y).toInt = if x.toNat < y.toNat then x.toInt else y.toInt := by
    unfold umin
    by_cases h : x.toNat < y.toNat
    · rw [if_pos h, if_pos (show x < y from h)]
    · rw [if_neg h, if_neg (show ¬ x < y from h)]
  have hxLt := BitVec.toInt_lt (x := x)
  have hxLe := BitVec.le_toInt x
  have hyLt := BitVec.toInt_lt (x := y)
  have hyLe := BitVec.le_toInt y
  rw [hpick]
  rcases pos_cases x with ⟨hx, hx'⟩ | ⟨hx, hx'⟩
  · rcases pos_cases y with ⟨hy, hy'⟩ | ⟨hy, hy'⟩
    · split <;> split <;> omega
    · split <;> split <;> omega
  · rcases pos_cases y with ⟨hy, hy'⟩ | ⟨hy, hy'⟩
    · split <;> split <;> omega
    · split <;> split <;> omega

theorem intersect_lo (s t : Side) : (s.intersect t).lo = max s.lo t.lo := toInt_smax s.pos t.pos

theorem intersect_len (hs : s.Valid) (ht : t.Valid) : (s.intersect t).len =
    max 0 ((if 0 ≤ s.hi ↔ 0 ≤ t.hi then min s.hi t.hi else max s.hi t.hi) - max s.lo t.lo) := by
  have hmin := toInt_umin (s.pos + s.size) (t.pos + t.size)
  have hmax := toInt_smax s.pos t.pos
  rw [toInt_hi hs, toInt_hi ht] at hmin
  obtain ⟨hsne, hsLo, hsHi⟩ := hs
  obtain ⟨htne, htLo, htHi⟩ := ht
  have hsEdge : s.hi = s.lo + s.len := rfl
  have htEdge : t.hi = t.lo + t.len := rfl
  generalize s.hi = shi at *
  generalize t.hi = thi at *
  unfold Side.intersect Side.len
  unfold Side.lo at *
  dsimp only
  generalize umin (s.pos + s.size) (t.pos + t.size) = right at hmin
  generalize smax s.pos t.pos = left at hmax
  rw [← hmin, ← hmax]
  have hdiff : (right - left).toInt = right.toInt - left.toInt := by
    refine toInt_of_toNat_emod ?_ ?_ ?_
    · rw [BitVec.toNat_sub]
      have := left.isLt
      rcases pos_cases right with ⟨-, hr⟩ | ⟨-, hr⟩
      · rcases pos_cases left with ⟨-, hl⟩ | ⟨-, hl⟩ <;> omega
      · rcases pos_cases left with ⟨-, hl⟩ | ⟨-, hl⟩ <;> omega
    · split at hmin <;> omega
    · split at hmin <;> omega
  have hclamp := toInt_smax 0 (right - left)
  rw [hdiff] at hclamp
  have hzero : (0 : BitVec 32).toInt = 0 := rfl
  rw [hzero] at hclamp
  rcases pos_cases (smax 0 (right - left)) with ⟨-, h⟩ | ⟨hneg, -⟩
  · rw [h, hclamp]
  · omega

theorem overlap_side_iff (hs : s.Valid) (ht : t.Valid) : s.overlap t ↔
    (((0 ≤ s.lo ↔ 0 ≤ t.hi) ∧ s.lo < t.hi) ∨ (0 ≤ s.lo ∧ t.hi < 0)) ∧
      (((0 ≤ t.lo ↔ 0 ≤ s.hi) ∧ t.lo < s.hi) ∨ (0 ≤ t.lo ∧ s.hi < 0)) := by
  have hless : ∀ x y : BitVec 32, x < y ↔
      ((0 ≤ x.toInt ↔ 0 ≤ y.toInt) ∧ x.toInt < y.toInt) ∨ (0 ≤ x.toInt ∧ y.toInt < 0) := by
    intro x y
    have hiff : x < y ↔ x.toNat < y.toNat := Iff.rfl
    rw [hiff]
    have := BitVec.toInt_lt (x := x)
    have := BitVec.le_toInt x
    have := BitVec.toInt_lt (x := y)
    have := BitVec.le_toInt y
    rcases pos_cases x with ⟨hx, hx'⟩ | ⟨hx, hx'⟩
    · rcases pos_cases y with ⟨hy, hy'⟩ | ⟨hy, hy'⟩ <;> omega
    · rcases pos_cases y with ⟨hy, hy'⟩ | ⟨hy, hy'⟩ <;> omega
  unfold Side.overlap
  rw [hless, hless, toInt_hi hs, toInt_hi ht]
  rfl

/-- Two rectangles overlap just when their intersection is not empty, and then it is in both. -/
structure Meets (r₁ r₂ : V4l2Rect) : Prop where
  overlap : v4l2RectOverlap r₁ r₂ = true ↔
    0 < (v4l2RectIntersect r₁ r₂).horizontal.len ∧ 0 < (v4l2RectIntersect r₁ r₂).vertical.len
  inside : 0 < (v4l2RectIntersect r₁ r₂).horizontal.len ∧ 0 < (v4l2RectIntersect r₁ r₂).vertical.len →
    ((v4l2RectIntersect r₁ r₂).horizontal.Inside r₁.horizontal ∧
      (v4l2RectIntersect r₁ r₂).vertical.Inside r₁.vertical) ∧
    (v4l2RectIntersect r₁ r₂).horizontal.Inside r₂.horizontal ∧
      (v4l2RectIntersect r₁ r₂).vertical.Inside r₂.vertical

/-- Both lie from 0 on, or both end below 0. -/
def OneSide (s t : Side) : Prop := (0 ≤ s.lo ∧ 0 ≤ t.lo) ∨ (s.hi < 0 ∧ t.hi < 0)

/-- The ends have one sign, and one starts where the other has ended. -/
def Apart (s t : Side) : Prop := (0 ≤ s.hi ↔ 0 ≤ t.hi) ∧ (t.hi ≤ s.lo ∨ s.hi ≤ t.lo)

theorem OneSide.meets (hs : s.Valid) (ht : t.Valid) (h : OneSide s t) :
    (s.overlap t ↔ 0 < (s.intersect t).len) ∧
      (0 < (s.intersect t).len → (s.intersect t).Inside s ∧ (s.intersect t).Inside t) := by
  have hlen := intersect_len hs ht
  have hlo := intersect_lo s t
  have hsne := hs.nonempty
  have htne := ht.nonempty
  unfold OneSide at h
  rw [overlap_side_iff hs ht]
  unfold Side.Inside
  unfold Side.hi at *
  have hsign : 0 ≤ s.lo + s.len ↔ 0 ≤ t.lo + t.len := by omega
  rw [if_pos hsign] at hlen
  rw [hlo]
  generalize (s.intersect t).len = n at hlen
  constructor
  · omega
  · intro hn
    omega

theorem Apart.misses (hs : s.Valid) (ht : t.Valid) (h : Apart s t) :
    ¬ s.overlap t ∧ ¬ 0 < (s.intersect t).len := by
  have hlen := intersect_len hs ht
  have hsne := hs.nonempty
  have htne := ht.nonempty
  obtain ⟨hsign, hapart⟩ := h
  rw [overlap_side_iff hs ht]
  rw [if_pos hsign] at hlen
  unfold Side.hi at *
  omega

theorem nonempty_of_not_apart (hs : s.Valid) (ht : t.Valid) (h : ¬ Apart s t) : 0 < (s.intersect t).len := by
  have hlen := intersect_len hs ht
  have hsne := hs.nonempty
  have htne := ht.nonempty
  unfold Apart at h
  unfold Side.hi at *
  split at hlen <;> omega

theorem not_overlap_of_not_oneSide (hs : s.Valid) (ht : t.Valid) (hside : ¬ OneSide s t) (h : ¬ Apart s t) :
    ¬ s.overlap t := by
  have hsne := hs.nonempty
  have htne := ht.nonempty
  rw [overlap_side_iff hs ht]
  unfold OneSide at hside
  unfold Apart at h
  unfold Side.hi at *
  omega

/-- In both directions the two lie on one side of 0, or in one direction they are apart. -/
def HasSides (r₁ r₂ : V4l2Rect) : Prop :=
  (OneSide r₁.horizontal r₂.horizontal ∧ OneSide r₁.vertical r₂.vertical) ∨
    Apart r₁.horizontal r₂.horizontal ∨ Apart r₁.vertical r₂.vertical

/-- **Exactly when overlap and intersection agree.** -/
theorem meets_iff {r₁ r₂ : V4l2Rect} (hx₁ : r₁.horizontal.Valid) (hy₁ : r₁.vertical.Valid)
    (hx₂ : r₂.horizontal.Valid) (hy₂ : r₂.vertical.Valid) : Meets r₁ r₂ ↔ HasSides r₁ r₂ := by
  constructor
  · intro h
    by_cases hx : Apart r₁.horizontal r₂.horizontal
    · exact .inr (.inl hx)
    by_cases hy : Apart r₁.vertical r₂.vertical
    · exact .inr (.inr hy)
    have hneX := nonempty_of_not_apart hx₁ hx₂ hx
    have hneY := nonempty_of_not_apart hy₁ hy₂ hy
    rw [← horizontal_intersect] at hneX
    rw [← vertical_intersect] at hneY
    have hover := h.overlap.mpr ⟨hneX, hneY⟩
    rw [overlap_iff] at hover
    refine .inl ⟨?_, ?_⟩
    · by_contra hside
      exact not_overlap_of_not_oneSide hx₁ hx₂ hside hx hover.1
    · by_contra hside
      exact not_overlap_of_not_oneSide hy₁ hy₂ hside hy hover.2
  · rintro (⟨hx, hy⟩ | hx | hy)
    · obtain ⟨hoverX, hinX⟩ := hx.meets hx₁ hx₂
      obtain ⟨hoverY, hinY⟩ := hy.meets hy₁ hy₂
      rw [← horizontal_intersect] at hoverX hinX
      rw [← vertical_intersect] at hoverY hinY
      refine ⟨?_, fun ⟨hneX, hneY⟩ => ?_⟩
      · rw [overlap_iff, hoverX, hoverY]
      · obtain ⟨h₁, h₂⟩ := hinX hneX
        obtain ⟨h₃, h₄⟩ := hinY hneY
        exact ⟨⟨h₁, h₃⟩, h₂, h₄⟩
    · obtain ⟨hover, hempty⟩ := hx.misses hx₁ hx₂
      rw [← horizontal_intersect] at hempty
      refine ⟨?_, fun hne => absurd hne.1 hempty⟩
      rw [overlap_iff]
      exact iff_of_false (fun h => hover h.1) fun h => hempty h.1
    · obtain ⟨hover, hempty⟩ := hy.misses hy₁ hy₂
      rw [← vertical_intersect] at hempty
      refine ⟨?_, fun hne => absurd hne.2 hempty⟩
      rw [overlap_iff]
      exact iff_of_false (fun h => hover h.2) fun h => hempty h.2

/-- A rectangle that is not empty and whose edges are signed numbers of 31 bits. -/
structure V4l2Rect.Valid (r : V4l2Rect) : Prop where
  horizontal : r.horizontal.Valid
  vertical : r.vertical.Valid

/-- **What the helpers do right**: a rectangle is moved inside a boundary that has a place for it, and overlap and
intersection agree for two that have their sides. -/
theorem helpers_iff {r b : V4l2Rect} (hr : r.Valid) (hb : b.Valid) :
    (MapsInside r b ↔ HasPlace r b) ∧ (Meets r b ↔ HasSides r b) :=
  ⟨mapsInside_iff hr.horizontal hr.vertical hb.horizontal hb.vertical,
    meets_iff hr.horizontal hr.vertical hb.horizontal hb.vertical⟩

/-- A rectangle that hangs over the corner of a frame. -/
theorem helpers_corner :
    MapsInside ⟨700, 500, 100, 200⟩ ⟨0, 0, 720, 576⟩ ∧ Meets ⟨700, 500, 100, 200⟩ ⟨0, 0, 720, 576⟩ := by
  have hr : V4l2Rect.Valid ⟨700, 500, 100, 200⟩ :=
    ⟨⟨by decide, by decide, by decide⟩, ⟨by decide, by decide, by decide⟩⟩
  have hb : V4l2Rect.Valid ⟨0, 0, 720, 576⟩ :=
    ⟨⟨by decide, by decide, by decide⟩, ⟨by decide, by decide, by decide⟩⟩
  refine ⟨(helpers_iff hr hb).1.mpr ⟨.inl rfl, .inl rfl, fun _ => ⟨fun h => ?_, fun h => ?_⟩⟩,
    (helpers_iff hr hb).2.mpr (.inl ⟨.inl (by decide), .inl (by decide)⟩)⟩
  · exact absurd h (by decide)
  · exact absurd h (by decide)

/-- A rectangle inside a boundary that starts at 100 is moved out of it, and one that starts at -5 does not overlap
itself. -/
theorem helpers_wrong : ¬ MapsInside ⟨110, 0, 10, 10⟩ ⟨100, 0, 50, 50⟩ ∧ ¬ Meets ⟨-5, 0, 10, 10⟩ ⟨-5, 0, 10, 10⟩ := by
  constructor
  · intro h
    exact absurd h.inside.1.1 (by decide +kernel)
  · intro h
    have hover := h.overlap.mpr (by decide +kernel)
    exact absurd hover (by decide +kernel)

end V4l2
end TbsMedia
