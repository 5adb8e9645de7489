import Mathlib
import TbsMedia.Lib.LinkedList
import TbsMedia.Lib.OpenIntervals
import TbsMedia.Lib.Runs

/-!
# The exclusion zones of the tuner

The zones that the first intermediate frequency must avoid are nodes of an array, linked in the order of their
frequencies.  A node that a merger leaves over goes to a list of free ones.

* `addExclZone`, `resetExclZones`: the functions, on the nodes and their links.
* `Linked`: the two lists, and the entries of the array that are in them.
* `addExclZone_spec`: the zones change as a list of open intervals does.
-/

namespace TbsMedia
namespace Mt2063

open Lib Lib.LinkedList Lib.OpenIntervals

/-! ## State -/

def MT2063_MAX_ZONES : ℕ := 48

/-- A node: a zone, and the index of the next node. -/
structure ExclZone where
  min : BitVec 32
  max : BitVec 32
  next : Option ℕ

/-- The array of the nodes with its two lists. -/
structure ZoneLists where
  nZones : BitVec 32
  freeZones : Option ℕ
  usedZones : Option ℕ
  exclZones : ℕ → ExclZone

/-- A `struct MT2063_AvoidSpursData_t`. -/
structure AvoidSpursData extends ZoneLists where
  fRef : BitVec 32
  fIn : BitVec 32
  fLO1 : BitVec 32
  fIf1Center : BitVec 32
  fIf1Request : BitVec 32
  fIf1Bw : BitVec 32
  fLO2 : BitVec 32
  fOut : BitVec 32
  fOutBw : BitVec 32
  fLO1Step : BitVec 32
  fLO2Step : BitVec 32
  fLO1FracNAvoid : BitVec 32
  fLO2FracNAvoid : BitVec 32
  fZifBw : BitVec 32
  maxH1 : BitVec 32
  avoidDECT : BitVec 32
  bSpurPresent : BitVec 32
  bSpurAvoided : BitVec 32
  nSpursFound : BitVec 32

namespace ZoneLists

def next (z : ZoneLists) (a : ℕ) : Option ℕ := (z.exclZones a).next

def setNext (z : ZoneLists) (a : ℕ) (p : Option ℕ) : ZoneLists :=
  { z with exclZones := Function.update z.exclZones a { z.exclZones a with next := p } }

def setMin (z : ZoneLists) (a : ℕ) (f : BitVec 32) : ZoneLists :=
  { z with exclZones := Function.update z.exclZones a { z.exclZones a with min := f } }

def setMax (z : ZoneLists) (a : ℕ) (f : BitVec 32) : ZoneLists :=
  { z with exclZones := Function.update z.exclZones a { z.exclZones a with max := f } }

end ZoneLists

/-! ## The functions -/

/-- A node from the free list, or the entry of the array that `nZones` says; `none` if there is no such entry. -/
def takeNode (z : ZoneLists) : Option (ZoneLists × ℕ) :=
  match z.freeZones with
  | some a => some ({ z with freeZones := z.next a }, a)
  | none => if z.nZones.toNat < MT2063_MAX_ZONES then some (z, z.nZones.toNat) else none

/-- A node is linked behind `prev`, or at the front. -/
def linkNode (z : ZoneLists) (prev : Option ℕ) (a : ℕ) : ZoneLists :=
  match prev with
  | some b => (z.setNext a (z.next b)).setNext b (some a)
  | none => { z.setNext a z.usedZones with usedZones := some a }

/-- `InsertNode`. -/
def insertNode (z : ZoneLists) (prev : Option ℕ) : Option (ZoneLists × ℕ) :=
  (takeNode z).map fun x =>
    let z := linkNode x.1 prev x.2
    ({ z with nZones := z.nZones + 1 }, x.2)

/-- `RemoveNode`, with the node behind the one that is removed. -/
def removeNode (z : ZoneLists) (prev : Option ℕ) (a : ℕ) : ZoneLists × Option ℕ :=
  let pNext := z.next a
  let z :=
    match prev with
    | some b => z.setNext b pNext
    | none => z
  let z := z.setNext a z.freeZones
  ({ z with freeZones := some a, nZones := z.nZones - 1 }, pNext)

/-- The place in the list: the node before it, and the node there; `none` if the list does not end. -/
def findPlace (z : ZoneLists) (fMin : BitVec 32) : ℕ → Option ℕ → Option ℕ → Option (Option ℕ × Option ℕ)
  | _, prev, none => some (prev, none)
  | 0, _, some _ => none
  | fuel + 1, prev, some a =>
    if (z.exclZones a).max < fMin then findPlace z fMin fuel (some a) (z.next a) else some (prev, some a)

/-- The range is combined with the zone of a node. -/
def combine (z : ZoneLists) (a : ℕ) (fMin fMax : BitVec 32) : ZoneLists :=
  let z := if fMin < (z.exclZones a).min then z.setMin a fMin else z
  if fMax > (z.exclZones a).max then z.setMax a fMax else z

/-- The range gets a node of its own. -/
def insertRange (z : ZoneLists) (prev : Option ℕ) (fMin fMax : BitVec 32) : Option (ZoneLists × ℕ) :=
  (insertNode z prev).map fun x => ((x.1.setMin x.2 fMin).setMax x.2 fMax, x.2)

/-- The range is put to its place. -/
def placeRange (z : ZoneLists) (fMin fMax : BitVec 32) (place : Option ℕ × Option ℕ) : Option (ZoneLists × ℕ) :=
  match place.2 with
  | some a =>
    if (z.exclZones a).min < fMax then some (combine z a fMin fMax, a) else insertRange z place.1 fMin fMax
  | none => insertRange z place.1 fMin fMax

/-- The nodes behind `a` that overlap it are merged with it; `none` if the list does not end. -/
def mergeLoop (a : ℕ) : ℕ → ZoneLists → Option ℕ → Option ZoneLists
  | _, z, none => some z
  | 0, _, some _ => none
  | fuel + 1, z, some b =>
    if (z.exclZones b).min < (z.exclZones a).max then
      let z := if (z.exclZones b).max > (z.exclZones a).max then z.setMax a (z.exclZones b).max else z
      let x := removeNode z (some a) b
      mergeLoop a fuel x.1 x.2
    else some z

/-- The body of `MT2063_AddExclZone`. -/
def addZone (z : ZoneLists) (fMin fMax : BitVec 32) : Option ZoneLists :=
  (findPlace z fMin MT2063_MAX_ZONES none z.usedZones).bind fun place =>
    (placeRange z fMin fMax place).bind fun x => mergeLoop x.2 MT2063_MAX_ZONES x.1 (x.1.next x.2)

/-- The range is not empty, and overlaps the first IF filter. -/
def Accepts (s : AvoidSpursData) (fMin fMax : BitVec 32) : Prop :=
  fMax > s.fIf1Center - s.fIf1Bw / 2 ∧ fMin < s.fIf1Center + s.fIf1Bw / 2 ∧ fMin < fMax

instance (s : AvoidSpursData) (fMin fMax : BitVec 32) : Decidable (Accepts s fMin fMax) :=
  inferInstanceAs (Decidable (_ ∧ _ ∧ _))

/-- `MT2063_AddExclZone`; `none` if the call needs a node and there is none left. -/
def addExclZone (s : AvoidSpursData) (fMin fMax : BitVec 32) : Option AvoidSpursData :=
  if Accepts s fMin fMax then (addZone s.toZoneLists fMin fMax).map fun z => { s with toZoneLists := z } else some s

/-- The calls for the centers from one on; `none` if the loop does not end. -/
def fracNCalls (fracNAvoid limit fRef : BitVec 32) : ℕ → BitVec 32 → Option (List (BitVec 32 × BitVec 32))
  | 0, _ => none
  | fuel + 1, center =>
    if center < limit then
      (fracNCalls fracNAvoid limit fRef fuel (center + fRef)).map fun calls =>
        (center - fracNAvoid, center - 1) :: (center + 1, center + fracNAvoid) :: calls
    else some []

/-- The DECT channels in the United States. -/
def usDect : List (BitVec 32 × BitVec 32) :=
  [(1920836000, 1922236000), (1922564000, 1923964000), (1924292000, 1925692000), (1926020000, 1927420000),
    (1927748000, 1929148000)]

/-- The DECT channels in Europe. -/
def euroDect : List (BitVec 32 × BitVec 32) :=
  [(1896644000, 1898044000), (1894916000, 1896316000), (1893188000, 1894588000), (1891460000, 1892860000),
    (1889732000, 1891132000), (1888004000, 1889404000), (1886276000, 1887676000), (1884548000, 1885948000),
    (1882820000, 1884220000), (1881092000, 1882492000)]

/-- The calls for the DECT channels. -/
def dectCalls (s : AvoidSpursData) : List (BitVec 32 × BitVec 32) :=
  ((if s.avoidDECT &&& 1 ≠ 0 then usDect else []) ++ (if s.avoidDECT &&& 2 ≠ 0 then euroDect else [])).map
    fun x => (x.1 - s.fIn, x.2 - s.fIn)

/-- The calls of `MT2063_AddExclZone` that `MT2063_ResetExclZones` makes; `none` if it divides by zero or does not
end. -/
def resetCalls (s : AvoidSpursData) : Option (List (BitVec 32 × BitVec 32)) :=
  if s.fRef = 0 then none
  else
    let center1 := s.fRef * ((s.fIf1Center - s.fIf1Bw / 2 + s.fIn) / s.fRef) - s.fIn
    let center2 := s.fRef * ((s.fIf1Center - s.fIf1Bw / 2 - s.fOut) / s.fRef) + s.fOut
    let end1 := s.fIf1Center + s.fIf1Bw / 2 + s.fLO1FracNAvoid
    let end2 := s.fIf1Center + s.fIf1Bw / 2 + s.fLO2FracNAvoid
    (fracNCalls s.fLO1FracNAvoid end1 s.fRef (2 ^ 32) center1).bind fun calls1 =>
      (fracNCalls s.fLO2FracNAvoid end2 s.fRef (2 ^ 32) center2).map fun calls2 => calls1 ++ calls2 ++ dectCalls s

def clearZones (s : AvoidSpursData) : AvoidSpursData := { s with nZones := 0, usedZones := none, freeZones := none }

/-- A call with a range. -/
def addRange (s : AvoidSpursData) (r : BitVec 32 × BitVec 32) : Option AvoidSpursData := addExclZone s r.1 r.2

/-- `MT2063_ResetExclZones`. -/
def resetExclZones (s : AvoidSpursData) : Option AvoidSpursData :=
  (resetCalls s).bind fun calls => run addRange (clearZones s) calls

/-! ## The lists -/

/-- The zone of a node. -/
def zoneAt (z : ZoneLists) (a : ℕ) : ℤ × ℤ := ((z.exclZones a).min.toNat, (z.exclZones a).max.toNat)

/-- The used nodes and the free ones: they are linked in their order, the first entries of the array, and different
from each other. -/
structure Linked (z : ZoneLists) (used free : List ℕ) : Prop where
  usedZones : z.usedZones = first none used
  usedLinks : Leads z.next none used
  freeZones : z.freeZones = first none free
  freeLinks : Leads z.next none free
  entries : (used ++ free).Perm (List.range (used.length + free.length))
  room : used.length + free.length ≤ MT2063_MAX_ZONES
  count : z.nZones.toNat = used.length

variable {z z' : ZoneLists} {used free front rest : List ℕ} {a b x : ℕ} {p : Option ℕ} {f fMin fMax : BitVec 32}

namespace ZoneLists

theorem next_setNext_self : (z.setNext a p).next a = p := by
  unfold ZoneLists.next ZoneLists.setNext
  dsimp only
  rw [Function.update_self]

theorem next_setNext_of_ne (h : b ≠ a) : (z.setNext a p).next b = z.next b :=
  congrArg ExclZone.next (Function.update_of_ne h ..)

theorem next_setMin : (z.setMin a f).next = z.next := by
  funext b
  unfold ZoneLists.next ZoneLists.setMin
  dsimp only
  by_cases h : b = a
  · rw [h, Function.update_self]
  · rw [Function.update_of_ne h]

theorem next_setMax : (z.setMax a f).next = z.next := by
  funext b
  unfold ZoneLists.next ZoneLists.setMax
  dsimp only
  by_cases h : b = a
  · rw [h, Function.update_self]
  · rw [Function.update_of_ne h]

end ZoneLists

open ZoneLists

theorem zoneAt_setNext : zoneAt (z.setNext a p) = zoneAt z := by
  funext b
  unfold zoneAt ZoneLists.setNext
  dsimp only
  by_cases h : b = a
  · rw [h, Function.update_self]
  · rw [Function.update_of_ne h]

theorem zoneAt_setMin : zoneAt (z.setMin a f) = Function.update (zoneAt z) a (f.toNat, (zoneAt z a).2) := by
  funext b
  by_cases h : b = a
  · rw [h, Function.update_self]
    unfold zoneAt ZoneLists.setMin
    dsimp only
    rw [Function.update_self]
  · rw [Function.update_of_ne h]
    unfold zoneAt ZoneLists.setMin
    dsimp only
    rw [Function.update_of_ne h]

theorem zoneAt_setMax : zoneAt (z.setMax a f) = Function.update (zoneAt z) a ((zoneAt z a).1, f.toNat) := by
  funext b
  by_cases h : b = a
  · rw [h, Function.update_self]
    unfold zoneAt ZoneLists.setMax
    dsimp only
    rw [Function.update_self]
  · rw [Function.update_of_ne h]
    unfold zoneAt ZoneLists.setMax
    dsimp only
    rw [Function.update_of_ne h]

theorem lt_iff_toNat (x y : BitVec 32) : x < y ↔ (x.toNat : ℤ) < y.toNat := Int.ofNat_lt.symm

/-- Other values in the zones. -/
theorem Linked.congr (h : Linked z used free) (hnext : z'.next = z.next) (hused : z'.usedZones = z.usedZones)
    (hfree : z'.freeZones = z.freeZones) (hcount : z'.nZones = z.nZones) : Linked z' used free where
  usedZones := hused.trans h.usedZones
  usedLinks := hnext ▸ h.usedLinks
  freeZones := hfree.trans h.freeZones
  freeLinks := hnext ▸ h.freeLinks
  entries := h.entries
  room := h.room
  count := hcount ▸ h.count

theorem Linked.nodup (h : Linked z used free) : (used ++ free).Nodup :=
  (List.Perm.nodup_iff h.entries).mpr List.nodup_range

/-! ## A node is inserted -/

/-- A node is taken, unless all of them are used. -/
theorem takeNode_spec (h : Linked z used free) :
    (takeNode z = none ∧ used.length = MT2063_MAX_ZONES) ∨
      ∃ z' x free', takeNode z = some (z', x) ∧ z'.exclZones = z.exclZones ∧ z'.usedZones = z.usedZones ∧
        z'.nZones = z.nZones ∧ z'.freeZones = first none free' ∧ Leads z.next none free' ∧
        (x :: (used ++ free')).Perm (List.range (used.length + 1 + free'.length)) ∧
        used.length + 1 + free'.length ≤ MT2063_MAX_ZONES := by
  unfold takeNode
  rw [h.freeZones]
  have hentries := h.entries
  have hroom := h.room
  cases free with
  | nil =>
    rw [List.append_nil, List.length_nil, Nat.add_zero] at hentries
    rw [List.length_nil, Nat.add_zero] at hroom
    rw [h.count]
    by_cases hlt : used.length < MT2063_MAX_ZONES
    · refine .inr ⟨z, used.length, [], if_pos hlt, rfl, rfl, rfl, h.freeZones, trivial, ?_, hlt⟩
      rw [List.append_nil, List.length_nil, Nat.add_zero, List.range_succ]
      exact (List.Perm.cons _ hentries).trans (List.perm_append_singleton _ _).symm
    · exact .inl ⟨if_neg hlt, le_antisymm hroom (not_lt.mp hlt)⟩
  | cons b free =>
    rw [List.length_cons] at hentries hroom
    refine .inr ⟨{ z with freeZones := z.next b }, b, free, rfl, rfl, rfl, rfl, h.freeLinks.1, h.freeLinks.2, ?_, ?_⟩
    · rw [Nat.add_right_comm, Nat.add_assoc]
      exact List.perm_middle.symm.trans hentries
    · omega

/-- The node is linked. -/
theorem linkNode_spec (hused : z.usedZones = first none (front ++ rest)) (hlinks : Leads z.next none (front ++ rest))
    (hnodup : (front ++ rest).Nodup) (hx : x ∉ front ++ rest) :
    (linkNode z front.getLast? x).usedZones = first none (front ++ x :: rest) ∧
      Leads (linkNode z front.getLast? x).next none (front ++ x :: rest) ∧
      (∀ c, c ∉ x :: front → (linkNode z front.getLast? x).next c = z.next c) ∧
      zoneAt (linkNode z front.getLast? x) = zoneAt z ∧
      (linkNode z front.getLast? x).freeZones = z.freeZones ∧ (linkNode z front.getLast? x).nZones = z.nZones := by
  rcases List.eq_nil_or_concat front with rfl | ⟨init, b, rfl⟩
  · refine ⟨rfl, ⟨?_, hlinks.congr fun c hc => ?_⟩, fun c hc => ?_, zoneAt_setNext, rfl, rfl⟩
    · exact next_setNext_self.trans hused
    · exact next_setNext_of_ne fun heq => hx (heq ▸ hc)
    · exact next_setNext_of_ne fun heq => hc (heq ▸ List.mem_cons_self)
  · rw [List.concat_eq_append] at *
    have hlast : (init ++ [b]).getLast? = some b := List.getLast?_concat
    have hb : x ≠ b := fun heq =>
      hx (heq ▸ List.mem_append_left _ (List.mem_append_right _ (List.mem_singleton.mpr rfl)))
    rw [hlast]
    obtain ⟨hfront, hrest⟩ := (leads_append (init ++ [b]) rest).mp hlinks
    have hinit := (List.nodup_append.mp hnodup).1
    have hsame : ∀ c, c ≠ x → c ≠ b → ((z.setNext x (z.next b)).setNext b (some x)).next c = z.next c :=
      fun c hcx hcb => (next_setNext_of_ne hcb).trans (next_setNext_of_ne hcx)
    refine ⟨?_, (leads_append _ _).mpr ⟨?_, ?_, ?_⟩, fun c hc => ?_, ?_, rfl, rfl⟩
    · rw [first_append] at hused ⊢
      refine hused.trans ?_
      cases init <;> rfl
    · refine hfront.relink next_setNext_self fun c hc => hsame c ?_ ?_
      · exact fun heq => hx (heq ▸ List.mem_append_left _ (List.mem_append_left _ hc))
      · exact fun heq => (List.nodup_append.mp hinit).2.2 c hc b (List.mem_singleton.mpr rfl) heq
    · refine (next_setNext_of_ne hb).trans (next_setNext_self.trans ?_)
      exact (((leads_append init [b]).mp hfront).2).1
    · refine hrest.congr fun c hc => hsame c ?_ ?_
      · exact fun heq => hx (heq ▸ List.mem_append_right _ hc)
      · refine fun heq => (List.nodup_append.mp hnodup).2.2 b ?_ c hc heq.symm
        exact List.mem_append_right _ (List.mem_singleton.mpr rfl)
    · refine hsame c (fun heq => hc (heq ▸ List.mem_cons_self)) fun heq => hc ?_
      rw [heq]
      exact List.mem_cons_of_mem _ (List.mem_append_right _ (List.mem_singleton.mpr rfl))
    · exact zoneAt_setNext.trans zoneAt_setNext

/-- A new node behind the first ones, with any values. -/
theorem insertNode_spec (h : Linked z (front ++ rest) free) :
    (insertNode z front.getLast? = none ∧ (front ++ rest).length = MT2063_MAX_ZONES) ∨
      ∃ z' x free', insertNode z front.getLast? = some (z', x) ∧ Linked z' (front ++ x :: rest) free' ∧
        zoneAt z' = zoneAt z ∧ x ∉ front ++ rest := by
  unfold insertNode
  rcases takeNode_spec h with ⟨htake, hfull⟩ | ⟨z₁, x, free', htake, hzones, hused, hcount, hfree, hlinks, hperm, hroom⟩
  · exact .inl ⟨by rw [htake]; rfl, hfull⟩
  · have hnodup := (List.Perm.nodup_iff hperm).mpr List.nodup_range
    obtain ⟨hx, hnodup⟩ := List.nodup_cons.mp hnodup
    have hx' : x ∉ front ++ rest := fun hc => hx (List.mem_append_left _ hc)
    have hnext : z₁.next = z.next := by
      unfold ZoneLists.next
      rw [hzones]
    have hzone : zoneAt z₁ = zoneAt z := by
      unfold zoneAt
      rw [hzones]
    obtain ⟨hused', hlinks', hother, hzone', hfree', hcount'⟩ := linkNode_spec (hused.trans h.usedZones)
      (hnext ▸ h.usedLinks) (List.nodup_append.mp hnodup).1 hx'
    rw [htake]
    refine .inr ⟨_, x, free', rfl, ⟨hused', hlinks', hfree'.trans hfree, ?_, ?_, ?_, ?_⟩, hzone'.trans hzone, hx'⟩
    · refine hlinks.congr fun c hc => (hother c fun hcm => ?_).trans (congrFun hnext c)
      rcases List.mem_cons.mp hcm with rfl | hcm
      · exact hx (List.mem_append_right _ hc)
      · exact (List.nodup_append.mp hnodup).2.2 c (List.mem_append_left _ hcm) c hc rfl
    · have hlength : (front ++ x :: rest).length = (front ++ rest).length + 1 := by
        rw [List.length_append, List.length_cons, List.length_append, Nat.add_assoc]
      rw [hlength]
      refine List.Perm.trans ?_ hperm
      rw [← List.cons_append]
      exact List.Perm.append_right _ List.perm_middle
    · rw [List.length_append, List.length_cons]
      rw [List.length_append] at hroom
      omega
    · have hlt : (front ++ rest).length < MT2063_MAX_ZONES := by omega
      have hcast : (linkNode z₁ front.getLast? x).nZones.toNat = (front ++ rest).length := by
        rw [hcount', hcount, h.count]
      change ((linkNode z₁ front.getLast? x).nZones + 1).toNat = _
      rw [BitVec.toNat_add, hcast, List.length_append, List.length_append, List.length_cons]
      rw [List.length_append] at hlt
      unfold MT2063_MAX_ZONES at hlt
      change (front.length + rest.length + 1) % 2 ^ 32 = _
      omega

/-! ## Nodes are merged -/

/-- The node behind `a` goes to the free list. -/
theorem removeNode_spec (h : Linked z (front ++ a :: b :: rest) free) :
    Linked (removeNode z (some a) b).1 (front ++ a :: rest) (b :: free) ∧
      (removeNode z (some a) b).2 = first none rest ∧ zoneAt (removeNode z (some a) b).1 = zoneAt z := by
  have hsplit : front ++ a :: b :: rest = (front ++ [a]) ++ b :: rest := List.append_cons ..
  have hsplit' : front ++ a :: rest = (front ++ [a]) ++ rest := List.append_cons ..
  have hused := h.usedZones
  have hlinks := h.usedLinks
  have hnodup := h.nodup
  rw [hsplit] at hused hlinks hnodup
  obtain ⟨hfront, hb, hrest⟩ := (leads_append _ _).mp hlinks
  obtain ⟨hnodup, hfree, hapart⟩ := List.nodup_append.mp hnodup
  obtain ⟨hnodup', hbehind, hfirst⟩ := List.nodup_append.mp hnodup
  obtain ⟨hbrest, -⟩ := List.nodup_cons.mp hbehind
  have ha : a ∈ front ++ [a] := List.mem_append_right _ (List.mem_singleton.mpr rfl)
  have hbfront : ∀ c ∈ front ++ [a], c ≠ b := fun c hc heq => hfirst c hc b List.mem_cons_self heq
  have hne : b ≠ a := (hbfront a ha).symm
  have hsame : ∀ c, c ≠ a → c ≠ b → ((z.setNext a (z.next b)).setNext b z.freeZones).next c = z.next c :=
    fun c hca hcb => (next_setNext_of_ne hcb).trans (next_setNext_of_ne hca)
  have hfrees : ∀ c ∈ free, ((z.setNext a (z.next b)).setNext b z.freeZones).next c = z.next c := by
    intro c hc
    refine hsame c (fun heq => ?_) fun heq => ?_
    · exact hapart a (List.mem_append_left _ ha) c hc heq.symm
    · exact hapart b (List.mem_append_right _ List.mem_cons_self) c hc heq.symm
  refine ⟨⟨?_, ?_, rfl, ⟨?_, ?_⟩, ?_, ?_, ?_⟩, hb, zoneAt_setNext.trans zoneAt_setNext⟩
  · rw [hsplit', first_append]
    rw [first_append] at hused
    refine hused.trans ?_
    cases front <;> rfl
  · rw [hsplit']
    refine (leads_append _ _).mpr ⟨hfront.relink ?_ fun c hc => ?_, hrest.congr fun c hc => ?_⟩
    · exact (next_setNext_of_ne hne.symm).trans (next_setNext_self.trans hb)
    · refine hsame c (fun heq => ?_) (hbfront c (List.mem_append_left _ hc))
      exact (List.nodup_append.mp hnodup').2.2 c hc a (List.mem_singleton.mpr rfl) heq
    · refine hsame c (fun heq => ?_) fun heq => hbrest (heq ▸ hc)
      exact hfirst a ha c (List.mem_cons_of_mem b hc) heq.symm
  · exact next_setNext_self.trans h.freeZones
  · exact h.freeLinks.congr hfrees
  · have hlength : (front ++ a :: rest).length + (b :: free).length =
        (front ++ a :: b :: rest).length + free.length := by
      simp only [List.length_append, List.length_cons]
      omega
    rw [hlength]
    refine List.Perm.trans ?_ h.entries
    rw [hsplit, hsplit', List.append_assoc (front ++ [a]), List.append_assoc (front ++ [a])]
    exact List.Perm.append_left _ List.perm_middle
  · have hroom := h.room
    simp only [List.length_append, List.length_cons] at hroom ⊢
    omega
  · have hcount := h.count
    have hroom := h.room
    unfold MT2063_MAX_ZONES at hroom
    simp only [List.length_append, List.length_cons] at hcount hroom ⊢
    change (z.nZones - 1).toNat = _
    have hone : (1 : BitVec 32).toNat = 1 := rfl
    rw [BitVec.toNat_sub, hcount, hone]
    omega

/-- The range and the zone of a node. -/
theorem combine_spec (z : ZoneLists) (a : ℕ) (fMin fMax : BitVec 32) :
    (combine z a fMin fMax).next = z.next ∧ (combine z a fMin fMax).usedZones = z.usedZones ∧
      (combine z a fMin fMax).freeZones = z.freeZones ∧ (combine z a fMin fMax).nZones = z.nZones ∧
      zoneAt (combine z a fMin fMax) = Function.update (zoneAt z) a
        (Min.min (fMin.toNat : ℤ) (zoneAt z a).1, Max.max (fMax.toNat : ℤ) (zoneAt z a).2) := by
  unfold combine
  dsimp only
  generalize hz₁ : (if fMin < (z.exclZones a).min then z.setMin a fMin else z) = z₁
  obtain ⟨hnext, hused, hfree, hcount, hzone⟩ : z₁.next = z.next ∧ z₁.usedZones = z.usedZones ∧
      z₁.freeZones = z.freeZones ∧ z₁.nZones = z.nZones ∧
      zoneAt z₁ = Function.update (zoneAt z) a (Min.min (fMin.toNat : ℤ) (zoneAt z a).1, (zoneAt z a).2) := by
    rw [← hz₁]
    split
    · next hlt =>
      have hle : (fMin.toNat : ℤ) ≤ (zoneAt z a).1 := ((lt_iff_toNat _ _).mp hlt).le
      rw [min_eq_left hle]
      exact ⟨next_setMin, rfl, rfl, rfl, zoneAt_setMin⟩
    · next hnot =>
      have hle : (zoneAt z a).1 ≤ fMin.toNat := not_lt.mp fun hlt => hnot ((lt_iff_toNat _ _).mpr hlt)
      rw [min_eq_right hle]
      exact ⟨rfl, rfl, rfl, rfl, (Function.update_eq_self ..).symm⟩
  have hupper : ((z₁.exclZones a).max.toNat : ℤ) = (zoneAt z a).2 := by
    change (zoneAt z₁ a).2 = _
    rw [hzone, Function.update_self]
  split
  · next hgt =>
    have hle : (zoneAt z a).2 ≤ fMax.toNat := hupper ▸ ((lt_iff_toNat _ _).mp hgt).le
    refine ⟨next_setMax.trans hnext, hused, hfree, hcount, ?_⟩
    rw [max_eq_left hle, zoneAt_setMax, hzone, Function.update_self, Function.update_idem]
  · next hnot =>
    have hle : (fMax.toNat : ℤ) ≤ (zoneAt z a).2 := hupper ▸ not_lt.mp fun hlt => hnot ((lt_iff_toNat _ _).mpr hlt)
    rw [max_eq_right hle]
    exact ⟨hnext, hused, hfree, hcount, hzone⟩

/-- The place is behind the zones that end before the range. -/
theorem findPlace_spec (front : List ℕ) (fMin : BitVec 32) {fuel : ℕ} (hlinks : Leads z.next none rest) (hfuel : rest.length ≤ fuel) :
    ∃ passed left, rest = passed ++ left ∧
      findPlace z fMin fuel front.getLast? (first none rest) = some ((front ++ passed).getLast?, first none left) ∧
      (∀ c ∈ passed, (zoneAt z c).2 < fMin.toNat) ∧ ∀ c ∈ left.head?, ¬ (zoneAt z c).2 < fMin.toNat := by
  induction rest generalizing front fuel with
  | nil =>
    refine ⟨[], [], rfl, ?_, fun c hc => absurd hc List.not_mem_nil, fun c hc => by cases hc⟩
    rw [List.append_nil]
    cases fuel <;> rfl
  | cons c rest ih =>
    obtain ⟨fuel, rfl⟩ : ∃ n, fuel = n + 1 := ⟨fuel - 1, by rw [List.length_cons] at hfuel; omega⟩
    change ∃ passed left, _ ∧ (if (z.exclZones c).max < fMin then findPlace z fMin fuel (some c) (z.next c)
      else some (front.getLast?, some c)) = _ ∧ _
    by_cases hbefore : (z.exclZones c).max < fMin
    · rw [if_pos hbefore, hlinks.1]
      have hlast : (front ++ [c]).getLast? = some c := List.getLast?_concat
      obtain ⟨passed, left, hrest, hfind, hpassed, hleft⟩ := ih (front ++ [c]) hlinks.2
        (Nat.le_of_succ_le_succ hfuel)
      rw [hlast] at hfind
      refine ⟨c :: passed, left, by rw [hrest]; rfl, ?_, fun e he => ?_, hleft⟩
      · rw [hfind, List.append_assoc]
        rfl
      · rcases List.mem_cons.mp he with rfl | he
        · exact (lt_iff_toNat _ _).mp hbefore
        · exact hpassed e he
    · rw [if_neg hbefore]
      refine ⟨[], c :: rest, rfl, by rw [List.append_nil]; rfl, fun e he => absurd he List.not_mem_nil, fun e he => ?_⟩
      rw [← Option.some.inj he]
      exact fun hlt => hbefore ((lt_iff_toNat _ _).mpr hlt)

/-- The node absorbs the ones behind it. -/
theorem mergeLoop_spec (fuel : ℕ) (h : Linked z (front ++ a :: rest) free) (hfuel : rest.length ≤ fuel) :
    ∃ z' left free', mergeLoop a fuel z (first none rest) = some z' ∧ Linked z' (front ++ a :: left) free' ∧
      (∀ c ∈ front, zoneAt z' c = zoneAt z c) ∧
      (a :: left).map (zoneAt z') = absorb (zoneAt z a) (rest.map (zoneAt z)) := by
  induction rest generalizing z free fuel with
  | nil =>
    refine ⟨z, [], free, ?_, h, fun c _ => rfl, rfl⟩
    cases fuel <;> rfl
  | cons b rest ih =>
    obtain ⟨fuel, rfl⟩ : ∃ n, fuel = n + 1 := ⟨fuel - 1, by rw [List.length_cons] at hfuel; omega⟩
    have hlength : rest.length ≤ fuel := Nat.le_of_succ_le_succ hfuel
    have hnodup := (List.nodup_append.mp h.nodup).1
    obtain ⟨-, hbehind, hfirst⟩ := List.nodup_append.mp hnodup
    obtain ⟨ha, -⟩ := List.nodup_cons.mp hbehind
    change ∃ z' left free', (if (z.exclZones b).min < (z.exclZones a).max then _ else some z) = _ ∧ _
    by_cases hover : (z.exclZones b).min < (z.exclZones a).max
    · rw [if_pos hover]
      generalize hz₁ : (if (z.exclZones b).max > (z.exclZones a).max then z.setMax a (z.exclZones b).max else z) = z₁
      have hlinked : Linked z₁ (front ++ a :: b :: rest) free := by
        rw [← hz₁]
        split
        · exact h.congr next_setMax rfl rfl rfl
        · exact h
      have hzone : zoneAt z₁ = Function.update (zoneAt z) a
          ((zoneAt z a).1, Max.max (zoneAt z a).2 (zoneAt z b).2) := by
        rw [← hz₁]
        split
        · next hgt =>
          have hle : (zoneAt z a).2 ≤ (zoneAt z b).2 := ((lt_iff_toNat _ _).mp hgt).le
          rw [zoneAt_setMax, max_eq_right hle]
          rfl
        · next hnot =>
          have hle : (zoneAt z b).2 ≤ (zoneAt z a).2 := not_lt.mp fun hlt => hnot ((lt_iff_toNat _ _).mpr hlt)
          rw [max_eq_left hle]
          exact (Function.update_eq_self ..).symm
      obtain ⟨hremoved, hnext, hzone'⟩ := removeNode_spec hlinked
      obtain ⟨z', left, free', hloop, hlinked', hfront, hmap⟩ := ih fuel hremoved hlength
      rw [hzone', hzone] at hmap hfront
      rw [← hnext] at hloop
      refine ⟨z', left, free', hloop, hlinked', fun c hc => ?_, ?_⟩
      · rw [hfront c hc]
        exact Function.update_of_ne (fun heq => hfirst c hc a List.mem_cons_self heq) ..
      · have hrest : rest.map (Function.update (zoneAt z) a ((zoneAt z a).1, Max.max (zoneAt z a).2 (zoneAt z b).2)) =
            rest.map (zoneAt z) :=
          List.map_congr_left fun c hc => Function.update_of_ne (ne_of_mem_of_not_mem (List.mem_cons_of_mem b hc) ha) ..
        rw [hrest, Function.update_self] at hmap
        exact hmap.trans (if_pos ((lt_iff_toNat _ _).mp hover)).symm
    · rw [if_neg hover]
      refine ⟨z, b :: rest, free, rfl, h, fun c _ => rfl, ?_⟩
      exact (if_neg fun hlt => hover ((lt_iff_toNat _ _).mpr hlt)).symm

/-! ## A range is added -/

/-- The merging from a node on. -/
theorem mergeFrom_spec (h : Linked z (front ++ a :: rest) free) :
    ∃ z' used' free', mergeLoop a MT2063_MAX_ZONES z (z.next a) = some z' ∧ Linked z' used' free' ∧
      used'.map (zoneAt z') = front.map (zoneAt z) ++ absorb (zoneAt z a) (rest.map (zoneAt z)) := by
  have hlinks := ((leads_append front (a :: rest)).mp h.usedLinks).2
  have hroom := h.room
  rw [List.length_append, List.length_cons] at hroom
  obtain ⟨z', left, free', hloop, hlinked, hfront, hmap⟩ := mergeLoop_spec MT2063_MAX_ZONES h (by omega)
  refine ⟨z', _, free', by rw [hlinks.1]; exact hloop, hlinked, ?_⟩
  rw [List.map_append, hmap, List.map_congr_left hfront]

/-- The range gets a node of its own. -/
theorem insertRange_spec (h : Linked z (front ++ rest) free) (fMin fMax : BitVec 32) :
    (insertRange z front.getLast? fMin fMax = none ∧ (front ++ rest).length = MT2063_MAX_ZONES) ∨
      ∃ z' x free', insertRange z front.getLast? fMin fMax = some (z', x) ∧ Linked z' (front ++ x :: rest) free' ∧
        zoneAt z' x = ((fMin.toNat : ℤ), (fMax.toNat : ℤ)) ∧
        (front ++ rest).map (zoneAt z') = (front ++ rest).map (zoneAt z) := by
  unfold insertRange
  rcases insertNode_spec h with ⟨hnone, hfull⟩ | ⟨z₁, x, free', hsome, hlinked, hzone, hx⟩
  · exact .inl ⟨by rw [hnone]; rfl, hfull⟩
  · rw [hsome]
    have hzone' : zoneAt ((z₁.setMin x fMin).setMax x fMax) =
        Function.update (zoneAt z) x ((fMin.toNat : ℤ), (fMax.toNat : ℤ)) := by
      rw [zoneAt_setMax, zoneAt_setMin, hzone, Function.update_self, Function.update_idem]
    refine .inr ⟨_, x, free', rfl, hlinked.congr (next_setMax.trans next_setMin) rfl rfl rfl, ?_, ?_⟩
    · rw [hzone', Function.update_self]
    · rw [hzone']
      exact List.map_congr_left fun c hc => Function.update_of_ne (ne_of_mem_of_not_mem hc hx) ..

/-- **A range is added to the zones as an interval is to a list of intervals**, unless it needs a node of its own and
all of them are used. -/
theorem addZone_spec (h : Linked z used free) (fMin fMax : BitVec 32) :
    (addZone z fMin fMax = none ∧ used.length = MT2063_MAX_ZONES) ∨
      ∃ z' used' free', addZone z fMin fMax = some z' ∧ Linked z' used' free' ∧
        used'.map (zoneAt z') = OpenIntervals.insert ((fMin.toNat : ℤ), (fMax.toNat : ℤ)) (used.map (zoneAt z)) := by
  have hlength : used.length ≤ MT2063_MAX_ZONES := (Nat.le_add_right _ _).trans h.room
  obtain ⟨passed, left, rfl, hfind, hpassed, hleft⟩ := findPlace_spec [] fMin h.usedLinks hlength
  change findPlace z fMin MT2063_MAX_ZONES none _ = some (passed.getLast?, _) at hfind
  have hinsert : OpenIntervals.insert ((fMin.toNat : ℤ), (fMax.toNat : ℤ)) ((passed ++ left).map (zoneAt z)) =
      passed.map (zoneAt z) ++ OpenIntervals.insert ((fMin.toNat : ℤ), (fMax.toNat : ℤ)) (left.map (zoneAt z)) := by
    rw [List.map_append]
    refine insert_append fun y hy => ?_
    obtain ⟨c, hc, rfl⟩ := List.mem_map.mp hy
    exact hpassed c hc
  -- a node of its own, before zones that it does not overlap
  have hnew : (∀ c ∈ left.head?, ¬ (zoneAt z c).1 < fMax.toNat) →
      placeRange z fMin fMax (passed.getLast?, first none left) = insertRange z passed.getLast? fMin fMax →
      ((placeRange z fMin fMax (passed.getLast?, first none left)).bind fun x =>
          mergeLoop x.2 MT2063_MAX_ZONES x.1 (x.1.next x.2)) = none ∧
          (passed ++ left).length = MT2063_MAX_ZONES ∨
        ∃ z' used' free', ((placeRange z fMin fMax (passed.getLast?, first none left)).bind fun x =>
            mergeLoop x.2 MT2063_MAX_ZONES x.1 (x.1.next x.2)) = some z' ∧ Linked z' used' free' ∧
          used'.map (zoneAt z') = passed.map (zoneAt z) ++
            OpenIntervals.insert ((fMin.toNat : ℤ), (fMax.toNat : ℤ)) (left.map (zoneAt z)) := by
    intro hapart hplace
    rw [hplace]
    rcases insertRange_spec h fMin fMax with ⟨hnone, hfull⟩ | ⟨z₁, x, free₁, hsome, hlinked, hx, hmap⟩
    · exact .inl ⟨by rw [hnone]; rfl, hfull⟩
    · rw [hsome]
      obtain ⟨z', used', free', hmerge, hlinked', hmap'⟩ := mergeFrom_spec hlinked
      rw [List.map_append, List.map_append] at hmap
      obtain ⟨hfront, hbehind⟩ := List.append_inj hmap (by rw [List.length_map, List.length_map])
      refine .inr ⟨z', used', free', hmerge, hlinked', hmap'.trans ?_⟩
      rw [hfront, hbehind, hx]
      cases left with
      | nil => rfl
      | cons c left =>
        have hnot := hapart c rfl
        refine congrArg (passed.map (zoneAt z) ++ ·) ?_
        exact (if_neg hnot).trans ((if_neg (hleft c rfl)).trans (if_neg hnot)).symm
  unfold addZone
  rw [h.usedZones, hfind, hinsert]
  change (Option.bind (placeRange z fMin fMax _) _ = _ ∧ _) ∨ ∃ z' used' free',
    Option.bind (placeRange z fMin fMax _) _ = some z' ∧ _
  cases left with
  | nil => exact hnew (fun c hc => by cases hc) rfl
  | cons c left =>
    by_cases hover : (z.exclZones c).min < fMax
    · have hplace : placeRange z fMin fMax (passed.getLast?, first none (c :: left)) =
          some (combine z c fMin fMax, c) := if_pos hover
      obtain ⟨hnext, hused, hfree, hcount, hzone⟩ := combine_spec z c fMin fMax
      have hnodup := (List.nodup_append.mp h.nodup).1
      obtain ⟨-, hbehind, hfirst⟩ := List.nodup_append.mp hnodup
      obtain ⟨z', used', free', hmerge, hlinked', hmap'⟩ := mergeFrom_spec (h.congr hnext hused hfree hcount)
      rw [hplace]
      refine .inr ⟨z', used', free', hmerge, hlinked', hmap'.trans ?_⟩
      have hfront : passed.map (zoneAt (combine z c fMin fMax)) = passed.map (zoneAt z) :=
        List.map_congr_left fun e he => by
          rw [hzone]
          exact Function.update_of_ne (fun heq => hfirst e he c List.mem_cons_self heq) ..
      have hrest : left.map (zoneAt (combine z c fMin fMax)) = left.map (zoneAt z) :=
        List.map_congr_left fun e he => by
          rw [hzone]
          exact Function.update_of_ne (ne_of_mem_of_not_mem he (List.nodup_cons.mp hbehind).1) ..
      rw [hfront, hrest, hzone, Function.update_self]
      refine congrArg (passed.map (zoneAt z) ++ ·) ?_
      exact ((if_neg (hleft c rfl)).trans (if_pos ((lt_iff_toNat _ _).mp hover))).symm
    · have hplace : placeRange z fMin fMax (passed.getLast?, first none (c :: left)) =
          insertRange z passed.getLast? fMin fMax := if_neg hover
      refine hnew (fun e he => ?_) hplace
      rw [← Option.some.inj he]
      exact fun hlt => hover ((lt_iff_toNat _ _).mpr hlt)

/-! ## The zones of a sequence of calls -/

/-- A range as an interval. -/
def interval (r : BitVec 32 × BitVec 32) : ℤ × ℤ := (r.1.toNat, r.2.toNat)

/-- The zones are in order and apart from each other, each of the ranges lies within one of them, and they have their
ends from the ranges. -/
structure Held (s : AvoidSpursData) (accepted : List (BitVec 32 × BitVec 32)) (used free : List ℕ) : Prop where
  linked : Linked s.toZoneLists used free
  apart : Apart (used.map (zoneAt s.toZoneLists))
  covered : ∀ r ∈ accepted, ∃ y ∈ used.map (zoneAt s.toZoneLists), Within (interval r) y
  ends : ∀ y ∈ used.map (zoneAt s.toZoneLists),
    (∃ r ∈ accepted, y.1 = (interval r).1) ∧ ∃ r ∈ accepted, y.2 = (interval r).2

variable {s s' : AvoidSpursData} {accepted calls : List (BitVec 32 × BitVec 32)}

theorem held_clearZones (s : AvoidSpursData) : Held (clearZones s) [] [] [] where
  linked := ⟨rfl, trivial, rfl, trivial, List.Perm.refl _, Nat.zero_le _, rfl⟩
  apart := apart_nil
  covered := fun _ h => absurd h List.not_mem_nil
  ends := fun _ h => absurd h List.not_mem_nil

/-- Only the zones matter. -/
theorem Held.congr (h : Held s accepted used free) (hzones : s'.toZoneLists = s.toZoneLists) :
    Held s' accepted used free := by
  refine ⟨?_, ?_, ?_, ?_⟩
  · rw [hzones]
    exact h.linked
  · rw [hzones]
    exact h.apart
  · rw [hzones]
    exact h.covered
  · rw [hzones]
    exact h.ends

/-- **A call of `MT2063_AddExclZone`** changes the zones as the insertion of an interval does, if the range is accepted,
and fails only when all the nodes are used. -/
theorem addExclZone_spec (h : Held s accepted used free) (fMin fMax : BitVec 32) :
    (addExclZone s fMin fMax = none ∧ used.length = MT2063_MAX_ZONES) ∨
      ∃ z used' free', addExclZone s fMin fMax = some { s with toZoneLists := z } ∧
        Held { s with toZoneLists := z } (if Accepts s fMin fMax then (fMin, fMax) :: accepted else accepted)
          used' free' ∧
        used'.map (zoneAt z) = if Accepts s fMin fMax then
          OpenIntervals.insert (interval (fMin, fMax)) (used.map (zoneAt s.toZoneLists))
          else used.map (zoneAt s.toZoneLists) := by
  unfold addExclZone
  by_cases haccepts : Accepts s fMin fMax
  · rw [if_pos haccepts, if_pos haccepts, if_pos haccepts]
    rcases addZone_spec h.linked fMin fMax with ⟨hnone, hfull⟩ | ⟨z, used', free', hadd, hlinked, hmap⟩
    · exact .inl ⟨by rw [hnone]; rfl, hfull⟩
    · rw [hadd]
      refine .inr ⟨z, used', free', rfl, ⟨hlinked, ?_, fun r hr => ?_, fun y hy => ?_⟩, hmap⟩
      · change Apart (used'.map (zoneAt z))
        rw [hmap]
        exact h.apart.insert ((lt_iff_toNat _ _).mp haccepts.2.2)
      · change ∃ y ∈ used'.map (zoneAt z), _
        rw [hmap]
        rcases List.mem_cons.mp hr with rfl | hr
        · exact within_insert_self _ _
        · obtain ⟨y, hy, hwithin⟩ := h.covered r hr
          obtain ⟨x, hx, hwithin'⟩ := within_insert (z := interval (fMin, fMax)) h.apart hy
          exact ⟨x, hx, hwithin.trans hwithin'⟩
      · change y ∈ used'.map (zoneAt z) at hy
        rw [hmap] at hy
        have hlift : ∀ {P : BitVec 32 × BitVec 32 → Prop}, (∃ r ∈ accepted, P r) →
            ∃ r ∈ (fMin, fMax) :: accepted, P r := fun h => h.imp fun r hr => ⟨List.mem_cons_of_mem _ hr.1, hr.2⟩
        obtain ⟨hlower, hupper⟩ := mem_insert hy
        constructor
        · rcases hlower with hlower | ⟨x, hx, hlower⟩
          · exact ⟨_, List.mem_cons_self, hlower⟩
          · rw [hlower]
            exact hlift (h.ends x hx).1
        · rcases hupper with hupper | ⟨x, hx, hupper⟩
          · exact ⟨_, List.mem_cons_self, hupper⟩
          · rw [hupper]
            exact hlift (h.ends x hx).2
  · rw [if_neg haccepts, if_neg haccepts, if_neg haccepts]
    exact .inr ⟨s.toZoneLists, used, free, rfl, h, rfl⟩

/-- Several calls, one after the other. -/
theorem addRanges_spec (h : Held s accepted used free) (hrun : run addRange s calls = some s') :
    ∃ z accepted' used' free', s' = { s with toZoneLists := z } ∧ Held s' accepted' used' free' ∧
      (∀ r, r ∈ accepted' ↔ r ∈ accepted ∨ (r ∈ calls ∧ Accepts s r.1 r.2)) := by
  induction calls generalizing s accepted used free with
  | nil =>
    obtain rfl := Option.some.inj hrun
    refine ⟨s.toZoneLists, accepted, used, free, rfl, h, fun r => ⟨.inl, ?_⟩⟩
    rintro (hr | ⟨hr, -⟩)
    · exact hr
    · exact absurd hr List.not_mem_nil
  | cons c calls ih =>
    obtain ⟨u, hu, hrun⟩ := Option.bind_eq_some_iff.mp hrun
    rcases addExclZone_spec h c.1 c.2 with ⟨hnone, -⟩ | ⟨z, used₁, free₁, hadd, hheld, -⟩
    · exact absurd (hnone.symm.trans hu) (Option.some_ne_none u).symm
    · obtain rfl := Option.some.inj (hadd.symm.trans hu)
      obtain ⟨z', accepted', used', free', hs', hheld', hmem⟩ := ih hheld hrun
      refine ⟨z', accepted', used', free', hs', hheld', fun r => (hmem r).trans ?_⟩
      by_cases haccepts : Accepts s c.1 c.2
      · rw [if_pos haccepts, List.mem_cons, List.mem_cons]
        constructor
        · rintro ((rfl | hr) | ⟨hr, hacc⟩)
          · exact .inr ⟨.inl rfl, haccepts⟩
          · exact .inl hr
          · exact .inr ⟨.inr hr, hacc⟩
        · rintro (hr | ⟨rfl | hr, hacc⟩)
          · exact .inl (.inr hr)
          · exact .inl (.inl rfl)
          · exact .inr ⟨hr, hacc⟩
      · rw [if_neg haccepts, List.mem_cons]
        constructor
        · rintro (hr | ⟨hr, hacc⟩)
          · exact .inl hr
          · exact .inr ⟨.inr hr, hacc⟩
        · rintro (hr | ⟨rfl | hr, hacc⟩)
          · exact .inl hr
          · exact absurd hacc haccepts
          · exact .inr ⟨hr, hacc⟩

end Mt2063
end TbsMedia
