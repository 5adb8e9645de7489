import Mathlib
import TbsMedia.Mc.Pipeline

/-!
# Links and their backlinks

A link between two entities is two nodes: the link on the list of its source, and a backlink on the list of its sink.
Each points to the other.  A link is made in two steps that may both fail, and is removed from either end.

Two nodes that are each other's counterparts share nothing with another pair (`Paired.disjoint`).  So a link
that is removed takes exactly its pair with it (`Removed`), and one that is made adds a pair (`Added`); all
other nodes, and the counters that are not concerned, are what they were.

* `mediaCreatePadLink`, `mediaEntityRemoveLinks`, `mediaEntitySetupLink`: the operations.
* `LinksKept`: every node has its counterpart, the counters are right, and a call that fails changes nothing.
* `Linked`, `Tallied`: the invariant, without and with the counters, which have sixteen bits.
* `linksKept_run`: it holds of every run in which no list gets too long for its counter.
* `not_linksKept`: a list that does has no counter any more.
-/

namespace TbsMedia
namespace Mc
namespace Links

open Lib

def ENOMEM : ℤ := 12

def MEDIA_LNK_FL_INTERFACE_LINK : UInt32 := 0x10000000

/-! ## State -/

/-- A `struct media_link`. -/
structure MediaLink (n : ℕ) where
  source : MediaPad n
  sink : MediaPad n
  reverse : Option LinkPtr
  flags : UInt32
  isBacklink : Bool

/-- The entity at the other end. -/
def MediaLink.otherEnd {n : ℕ} (l : MediaLink n) (entity : Fin n) : Fin n :=
  if l.source.entity = entity then l.sink.entity else l.source.entity

/-- The entities of a device, and the memory of the links. -/
structure LinkSys (n : ℕ) where
  numPads : Fin n → ℕ
  links : Fin n → List LinkPtr
  numLinks : Fin n → UInt16
  numBacklinks : Fin n → UInt16
  streamCount : Fin n → ℕ
  link : LinkPtr → MediaLink n

/-- Memory that is no link of an entity. -/
def Free {n : ℕ} (s : LinkSys n) (a : LinkPtr) : Prop := ∀ x, a ∉ s.links x

instance {n : ℕ} (s : LinkSys n) (a : LinkPtr) : Decidable (Free s a) :=
  inferInstanceAs (Decidable (∀ _, _))

section Operations

variable {n : ℕ}

/-! ## Removing links -/

/-- The node at the other end of a link of an entity is removed. -/
def dropReverse (s : LinkSys n) (entity : Fin n) (l : MediaLink n) (r : LinkPtr) : LinkSys n :=
  let remote := l.otherEnd entity
  { s with
    numBacklinks := if l.source.entity = entity then
        Function.update s.numBacklinks remote (s.numBacklinks remote - 1)
      else s.numBacklinks
    links := Function.update s.links remote ((s.links remote).erase r)
    numLinks := Function.update s.numLinks remote (s.numLinks remote - 1) }

/-- The loop over the list at the other end. -/
def removeReverse (entity : Fin n) (l : MediaLink n) : List LinkPtr → LinkSys n → LinkSys n
  | [], s => s
  | r :: rs, s =>
    if some r ≠ l.reverse then removeReverse entity l rs s
    else
      let s := dropReverse s entity l r
      if s.numLinks (l.otherEnd entity) = 0 then s else removeReverse entity l rs s

/-- `__media_entity_remove_link`. -/
def mediaEntityRemoveLink (entity : Fin n) (s : LinkSys n) (p : LinkPtr) : LinkSys n :=
  let l := s.link p
  let s := removeReverse entity l (s.links (l.otherEnd entity)) s
  { s with links := Function.update s.links entity ((s.links entity).erase p) }

/-- `__media_entity_remove_links`. -/
def mediaEntityRemoveLinks (s : LinkSys n) (entity : Fin n) : LinkSys n :=
  let s := (s.links entity).foldl (mediaEntityRemoveLink entity) s
  { s with
    numLinks := Function.update s.numLinks entity 0
    numBacklinks := Function.update s.numBacklinks entity 0 }

/-! ## Creating links -/

/-- `media_add_link`, and what is stored to the new link. -/
def mediaAddLink (s : LinkSys n) (head : Fin n) (a : LinkPtr) (l : MediaLink n) : LinkSys n :=
  { s with
    links := Function.update s.links head (s.links head ++ [a])
    link := Function.update s.link a l }

/-- The two nodes get to know each other, and are counted. -/
def joinLinks (s : LinkSys n) (source sink : Fin n) (a b : LinkPtr) : LinkSys n :=
  let link := Function.update s.link a { s.link a with reverse := some b }
  let numLinks := Function.update s.numLinks sink (s.numLinks sink + 1)
  { s with
    link := Function.update link b { link b with reverse := some a }
    numBacklinks := Function.update s.numBacklinks sink (s.numBacklinks sink + 1)
    numLinks := Function.update numLinks source (numLinks source + 1) }

/-- `media_create_pad_link`.  The allocations return `a` and `b`. -/
def mediaCreatePadLink (s : LinkSys n) (source sink : MediaPad n) (flags : UInt32) (a b : Option LinkPtr) :
    LinkSys n × ℤ :=
  match a with
  | none => (s, -ENOMEM)
  | some a =>
    let s := mediaAddLink s source.entity a ⟨source, sink, none, flags &&& ~~~MEDIA_LNK_FL_INTERFACE_LINK, false⟩
    match b with
    | none => (mediaEntityRemoveLink source.entity s a, -ENOMEM)
    | some b =>
      let s := mediaAddLink s sink.entity b ⟨source, sink, none, flags, true⟩
      (joinLinks s source.entity sink.entity a b, 0)

/-! ## Setting up links -/

/-- The flags of a link and of its reverse. -/
def storeFlags (s : LinkSys n) (p : LinkPtr) (flags : UInt32) : LinkSys n :=
  let link := Function.update s.link p { s.link p with flags := flags }
  match (link p).reverse with
  | none => { s with link := link }
  | some r => { s with link := Function.update link r { link r with flags := (link p).flags } }

/-- `__media_entity_setup_link_notify`.  The operations `link_setup` of the source and the sink return
`sourceSetup` and `sinkSetup`. -/
def mediaEntitySetupLinkNotify (s : LinkSys n) (p : LinkPtr) (flags : UInt32) (sourceSetup sinkSetup : ℤ) :
    LinkSys n × ℤ :=
  if sourceSetup < 0 ∧ sourceSetup ≠ -ENOIOCTLCMD then (s, sourceSetup)
  else if sinkSetup < 0 ∧ sinkSetup ≠ -ENOIOCTLCMD then (s, sinkSetup)
  else (storeFlags s p flags, 0)

/-- `__media_entity_setup_link`.  The operation `link_notify` of the device returns `notify`, if there is one. -/
def mediaEntitySetupLink (s : LinkSys n) (p : Option LinkPtr) (flags : UInt32) (notify : Option ℤ)
    (sourceSetup sinkSetup : ℤ) : LinkSys n × ℤ :=
  match p with
  | none => (s, -EINVAL)
  | some p =>
    let l := s.link p
    if l.flags &&& ~~~MEDIA_LNK_FL_ENABLED ≠ flags &&& ~~~MEDIA_LNK_FL_ENABLED then (s, -EINVAL)
    else if l.flags &&& MEDIA_LNK_FL_IMMUTABLE ≠ 0 then (s, if l.flags = flags then 0 else -EINVAL)
    else if l.flags = flags then (s, 0)
    else if l.flags &&& MEDIA_LNK_FL_DYNAMIC = 0 ∧
        (s.streamCount l.source.entity ≠ 0 ∨ s.streamCount l.sink.entity ≠ 0) then (s, -EBUSY)
    else if notify.getD 0 < 0 then (s, notify.getD 0)
    else mediaEntitySetupLinkNotify s p flags sourceSetup sinkSetup

/-! ## Steps -/

/-- What happens next. -/
inductive LinkAct (n : ℕ) where
  | createPadLink (source sink : MediaPad n) (flags : UInt32) (a b : Option LinkPtr)
  | setupLink (p : Option LinkPtr) (flags : UInt32) (notify : Option ℤ) (sourceSetup sinkSetup : ℤ)
  | removeLinks (entity : Fin n)
  /-- Pipelines are started and stopped. -/
  | stream (entity : Fin n) (count : ℕ)

/-- A call and what it returns, or `none` where it cannot be made: the pads are not those of two entities, memory is
returned that is in use, or there is no such link. -/
def linkCall (s : LinkSys n) : LinkAct n → Option (LinkSys n × ℤ)
  | .createPadLink source sink flags a b =>
    if source.entity ≠ sink.entity ∧ source.index < s.numPads source.entity ∧ sink.index < s.numPads sink.entity ∧
        (∀ p ∈ a, Free s p) ∧ (∀ p ∈ b, Free s p) ∧ ∀ p ∈ a, p ∉ b then
      some (mediaCreatePadLink s source sink flags a b)
    else none
  | .setupLink p flags notify sourceSetup sinkSetup =>
    if ∀ q ∈ p, ¬Free s q then some (mediaEntitySetupLink s p flags notify sourceSetup sinkSetup) else none
  | .removeLinks entity => some (mediaEntityRemoveLinks s entity, 0)
  | .stream entity count => some ({ s with streamCount := Function.update s.streamCount entity count }, 0)

def linkStep (s : LinkSys n) (e : LinkAct n) : Option (LinkSys n) := (linkCall s e).map Prod.fst

end Operations

/-- No entity has a link, whatever the memory holds. -/
def LinkSys.initial {n : ℕ} (numPads : Fin n → ℕ) (link : LinkPtr → MediaLink n) : LinkSys n where
  numPads := numPads
  links := fun _ => []
  numLinks := fun _ => 0
  numBacklinks := fun _ => 0
  streamCount := fun _ => 0
  link := link

/-! ## What is to hold -/

section Spec

variable {n : ℕ}

/-- The node `r` is the counterpart of the node `p` of an entity. -/
structure Paired (s : LinkSys n) (x : Fin n) (p r : LinkPtr) : Prop where
  reverse : (s.link p).reverse = some r
  mem : r ∈ s.links ((s.link p).otherEnd x)
  back : (s.link r).reverse = some p
  source : (s.link r).source = (s.link p).source
  sink : (s.link r).sink = (s.link p).sink
  enabled : (s.link r).flags &&& MEDIA_LNK_FL_ENABLED = (s.link p).flags &&& MEDIA_LNK_FL_ENABLED
  isBacklink : (s.link r).isBacklink = !(s.link p).isBacklink

/-- **The links are kept**: every node has its counterpart, the counters say how many nodes there are, and a call that
fails changes neither the lists nor the nodes. -/
structure LinksKept (s : LinkSys n) : Prop where
  paired : ∀ x, ∀ p ∈ s.links x, ∃ r, Paired s x p r
  numLinks : ∀ x, (s.numLinks x).toNat = (s.links x).length
  numBacklinks : ∀ x, (s.numBacklinks x).toNat = (s.links x).countP fun p => (s.link p).isBacklink
  fails : ∀ e t ret, linkCall s e = some (t, ret) → ret ≠ 0 →
    t.links = s.links ∧ ∀ x, ∀ p ∈ s.links x, t.link p = s.link p

/-- A link that is made finds room in the counters of its entities. -/
def Countable (s : LinkSys n) : LinkAct n → Prop
  | .createPadLink source sink _ (some _) (some _) =>
    (s.links source.entity).length + 1 < 2 ^ 16 ∧ (s.links sink.entity).length + 1 < 2 ^ 16
  | _ => True

/-- The entity whose list a node is on. -/
def MediaLink.home (l : MediaLink n) : Fin n := if l.isBacklink then l.sink.entity else l.source.entity

/-- The nodes of the lists are those of links between two entities, each with its counterpart. -/
structure Linked (s : LinkSys n) : Prop where
  nodup : ∀ x, (s.links x).Nodup
  home : ∀ x, ∀ p ∈ s.links x, (s.link p).home = x
  ends : ∀ x, ∀ p ∈ s.links x, (s.link p).source.entity ≠ (s.link p).sink.entity
  paired : ∀ x, ∀ p ∈ s.links x, ∃ r, Paired s x p r

/-- The counters of an entity, as far as they go. -/
structure Tallied (s : LinkSys n) (x : Fin n) : Prop where
  numLinks : s.numLinks x = UInt16.ofNat (s.links x).length
  numBacklinks : s.numBacklinks x = UInt16.ofNat ((s.links x).countP fun p => (s.link p).isBacklink)

end Spec

/-! ## Pairs -/

section Pairs

variable {n : ℕ} {s t : LinkSys n} {x : Fin n} {p q r : LinkPtr}

/-- A node is on one list only. -/
theorem Linked.home_eq (h : Linked s) {y : Fin n} (hx : p ∈ s.links x) (hy : p ∈ s.links y) : x = y :=
  (h.home x p hx).symm.trans (h.home y p hy)

theorem otherEnd_ne (l : MediaLink n) (hends : l.source.entity ≠ l.sink.entity) (hhome : l.home = x) :
    l.otherEnd x ≠ x := by
  subst hhome
  unfold MediaLink.otherEnd MediaLink.home
  rcases l.isBacklink with _ | _
  · rw [if_neg Bool.false_ne_true, if_pos rfl]
    exact hends.symm
  · rw [if_pos rfl, if_neg hends]
    exact hends

/-- A counterpart is not the node itself. -/
theorem Paired.ne (h : Paired s x p r) : p ≠ r := by
  rintro rfl
  exact absurd h.isBacklink.symm (Bool.not_ne_self _)

/-- The nodes of another pair are others. -/
theorem Paired.disjoint {y : Fin n} {r' : LinkPtr} (h : Paired s x p r) (h' : Paired s y q r') (hp : q ≠ p)
    (hr : q ≠ r) : r' ≠ p ∧ r' ≠ r := by
  constructor
  · rintro rfl
    exact hr (Option.some.inj (h'.back.symm.trans h.reverse))
  · rintro rfl
    exact hp (Option.some.inj (h'.back.symm.trans h.back))

/-- The pair is what it was when its nodes are, and the counterpart is still on its list. -/
theorem Paired.of_eq (h : Paired s x p r) (hp : t.link p = s.link p) (hr : t.link r = s.link r)
    (hmem : r ∈ t.links ((s.link p).otherEnd x)) : Paired t x p r where
  reverse := by rw [hp]; exact h.reverse
  mem := by rw [hp]; exact hmem
  back := by rw [hr]; exact h.back
  source := by rw [hp, hr]; exact h.source
  sink := by rw [hp, hr]; exact h.sink
  enabled := by rw [hp, hr]; exact h.enabled
  isBacklink := by rw [hp, hr]; exact h.isBacklink

end Pairs

/-! ## Removing -/

section Removing

variable {n : ℕ} {s t : LinkSys n} {x : Fin n} {p r : LinkPtr}

theorem removeReverse_of_notMem {l : MediaLink n} {rs : List LinkPtr} (h : ∀ q ∈ rs, some q ≠ l.reverse)
    (s : LinkSys n) : removeReverse x l rs s = s := by
  induction rs with
  | nil => rfl
  | cons q rs ih =>
    rw [removeReverse, if_pos (h q List.mem_cons_self)]
    exact ih fun q' hq' => h q' (List.mem_cons_of_mem _ hq')

/-- The loop finds the counterpart, and nothing else. -/
theorem removeReverse_of_mem {l : MediaLink n} {rs : List LinkPtr} (hnodup : rs.Nodup) (hr : l.reverse = some r)
    (hmem : r ∈ rs) (s : LinkSys n) : removeReverse x l rs s = dropReverse s x l r := by
  induction rs with
  | nil => exact absurd hmem List.not_mem_nil
  | cons q rs ih =>
    obtain ⟨hq, hnodup⟩ := List.nodup_cons.mp hnodup
    rw [removeReverse]
    rcases eq_or_ne q r with rfl | hne
    · have hrest : ∀ q' ∈ rs, some q' ≠ l.reverse := by
        intro q' hq' heq
        rw [hr] at heq
        exact hq (Option.some.inj heq ▸ hq')
      rw [if_neg (not_not.mpr hr.symm)]
      dsimp only
      rw [removeReverse_of_notMem hrest]
      exact ite_self _
    · rw [if_pos fun heq => hne (Option.some.inj (heq.trans hr))]
      exact ih hnodup ((List.mem_cons.mp hmem).resolve_left hne.symm)

/-- A link of an entity is removed with its counterpart. -/
theorem mediaEntityRemoveLink_eq (h : Linked s) (hp : p ∈ s.links x) (hpair : Paired s x p r) :
    mediaEntityRemoveLink x s p =
      { dropReverse s x (s.link p) r with
        links := Function.update (dropReverse s x (s.link p) r).links x ((s.links x).erase p) } := by
  have hne := otherEnd_ne _ (h.ends x p hp) (h.home x p hp)
  have hx : (dropReverse s x (s.link p) r).links x = s.links x := Function.update_of_ne hne.symm _ _
  unfold mediaEntityRemoveLink
  dsimp only
  rw [removeReverse_of_mem (h.nodup _) hpair.reverse hpair.mem, hx]

/-- What is left when a pair is removed. -/
structure Removed (s t : LinkSys n) (x : Fin n) (p r : LinkPtr) : Prop where
  link : t.link = s.link
  self : t.links x = (s.links x).erase p
  remote : t.links ((s.link p).otherEnd x) = (s.links ((s.link p).otherEnd x)).erase r
  others : ∀ y, y ≠ x → y ≠ (s.link p).otherEnd x → t.links y = s.links y
  numLinks : t.numLinks ((s.link p).otherEnd x) = s.numLinks ((s.link p).otherEnd x) - 1
  numBacklinks : t.numBacklinks ((s.link p).otherEnd x) =
    if (s.link p).isBacklink then s.numBacklinks ((s.link p).otherEnd x)
    else s.numBacklinks ((s.link p).otherEnd x) - 1
  counters : ∀ y, y ≠ (s.link p).otherEnd x → t.numLinks y = s.numLinks y ∧ t.numBacklinks y = s.numBacklinks y

theorem removed (h : Linked s) (hp : p ∈ s.links x) (hpair : Paired s x p r) :
    Removed s (mediaEntityRemoveLink x s p) x p r := by
  have hends := h.ends x p hp
  have hhome := h.home x p hp
  have hne := otherEnd_ne _ hends hhome
  have hforward : (s.link p).source.entity = x ↔ (s.link p).isBacklink = false := by
    rw [← hhome]
    unfold MediaLink.home
    rcases hb : (s.link p).isBacklink with _ | _
    · simp
    · simpa using hends
  rw [mediaEntityRemoveLink_eq h hp hpair]
  refine ⟨rfl, Function.update_self .., ?_, fun y hx hy => ?_, Function.update_self .., ?_, fun y hy => ⟨?_, ?_⟩⟩
  · exact (Function.update_of_ne hne _ _).trans (Function.update_self ..)
  · exact (Function.update_of_ne hx _ _).trans (Function.update_of_ne hy _ _)
  · unfold dropReverse
    dsimp only
    rcases hb : (s.link p).isBacklink with _ | _
    · rw [if_pos (hforward.mpr hb), if_neg Bool.false_ne_true, Function.update_self]
    · rw [if_neg fun hx => by rw [hforward.mp hx] at hb; exact Bool.false_ne_true hb, if_pos rfl]
  · exact Function.update_of_ne hy _ _
  · unfold dropReverse
    dsimp only
    split_ifs
    · exact Function.update_of_ne hy _ _
    · rfl

/-- The nodes that are left are all but the two. -/
theorem Removed.mem_iff (h : Linked s) (hp : p ∈ s.links x) (hpair : Paired s x p r) (ht : Removed s t x p r)
    (y : Fin n) (q : LinkPtr) : q ∈ t.links y ↔ q ∈ s.links y ∧ q ≠ p ∧ q ≠ r := by
  have hne := otherEnd_ne _ (h.ends x p hp) (h.home x p hp)
  rcases eq_or_ne y x with rfl | hx
  · rw [ht.self, (h.nodup y).mem_erase_iff]
    constructor
    · rintro ⟨hq, hmem⟩
      exact ⟨hmem, hq, fun hr => hne (h.home_eq hpair.mem (hr ▸ hmem))⟩
    · exact fun hq => ⟨hq.2.1, hq.1⟩
  · rcases eq_or_ne y ((s.link p).otherEnd x) with rfl | hy
    · rw [ht.remote, (h.nodup _).mem_erase_iff]
      constructor
      · rintro ⟨hq, hmem⟩
        exact ⟨hmem, fun hqp => hne (h.home_eq (hqp ▸ hmem) hp), hq⟩
      · exact fun hq => ⟨hq.2.2, hq.1⟩
    · rw [ht.others y hx hy]
      constructor
      · exact fun hmem => ⟨hmem, fun hqp => hx (h.home_eq (hqp ▸ hmem) hp),
          fun hqr => hy (h.home_eq (hqr ▸ hmem) hpair.mem)⟩
      · exact fun hq => hq.1

theorem Removed.sublist (ht : Removed s t x p r) (y : Fin n) : (t.links y).Sublist (s.links y) := by
  rcases eq_or_ne y x with rfl | hx
  · rw [ht.self]
    exact List.erase_sublist
  · rcases eq_or_ne y ((s.link p).otherEnd x) with rfl | hy
    · rw [ht.remote]
      exact List.erase_sublist
    · rw [ht.others y hx hy]

/-- Without a pair the links are still paired. -/
theorem Removed.linked (h : Linked s) (hp : p ∈ s.links x) (hpair : Paired s x p r) (ht : Removed s t x p r) :
    Linked t where
  nodup := fun y => (h.nodup y).sublist (ht.sublist y)
  home := fun y q hq => by
    rw [ht.link]
    exact h.home y q ((ht.sublist y).subset hq)
  ends := fun y q hq => by
    rw [ht.link]
    exact h.ends y q ((ht.sublist y).subset hq)
  paired := fun y q hq => by
    obtain ⟨hmem, hqp, hqr⟩ := (ht.mem_iff h hp hpair y q).mp hq
    obtain ⟨r', hpair'⟩ := h.paired y q hmem
    refine ⟨r', hpair'.of_eq (congrFun ht.link q) (congrFun ht.link r') ?_⟩
    exact (ht.mem_iff h hp hpair _ r').mpr ⟨hpair'.mem, hpair.disjoint hpair' hqp hqr⟩

theorem ofNat_sub_one {m : ℕ} (h : 0 < m) : UInt16.ofNat m - 1 = UInt16.ofNat (m - 1) := by
  obtain ⟨k, rfl⟩ := Nat.exists_eq_succ_of_ne_zero h.ne'
  rw [Nat.succ_sub_one, UInt16.ofNat_add k 1]
  exact add_sub_cancel_right _ 1

/-- The counters at the other end stay right. -/
theorem Removed.tallied (hpair : Paired s x p r) (ht : Removed s t x p r) {y : Fin n} (hy : y ≠ x)
    (hs : Tallied s y) : Tallied t y := by
  rcases eq_or_ne y ((s.link p).otherEnd x) with rfl | hother
  · constructor
    · rw [ht.numLinks, hs.numLinks, ht.remote, List.length_erase_of_mem hpair.mem,
        ofNat_sub_one (List.length_pos_of_mem hpair.mem)]
    · rw [ht.numBacklinks, hs.numBacklinks, ht.link, ht.remote, List.countP_erase, hpair.isBacklink]
      rcases hb : (s.link p).isBacklink with _ | _
      · have hpos : 0 < (s.links ((s.link p).otherEnd x)).countP fun q => (s.link q).isBacklink :=
          List.countP_pos_iff.mpr ⟨r, hpair.mem, by rw [hpair.isBacklink, hb]; rfl⟩
        rw [if_neg Bool.false_ne_true, if_pos ⟨hpair.mem, rfl⟩, ofNat_sub_one hpos]
      · rw [if_pos rfl, if_neg fun hh => Bool.false_ne_true hh.2]
        rfl
  · constructor
    · rw [(ht.counters y hother).1, ht.others y hy hother]
      exact hs.numLinks
    · rw [(ht.counters y hother).2, ht.link, ht.others y hy hother]
      exact hs.numBacklinks

/-- One link after the other: in the end the entity has none, and the others are as good as before. -/
theorem removeLoop_spec (ps : List LinkPtr) (h : Linked s) (hps : s.links x = ps) (hs : ∀ y, y ≠ x → Tallied s y) :
    Linked (ps.foldl (mediaEntityRemoveLink x) s) ∧ (ps.foldl (mediaEntityRemoveLink x) s).links x = [] ∧
      (∀ y, y ≠ x → Tallied (ps.foldl (mediaEntityRemoveLink x) s) y) ∧
      ∀ y, ((ps.foldl (mediaEntityRemoveLink x) s).links y).Sublist (s.links y) := by
  induction ps generalizing s with
  | nil => exact ⟨h, hps, hs, fun y => List.Sublist.refl _⟩
  | cons p ps ih =>
    have hp : p ∈ s.links x := hps ▸ List.mem_cons_self
    obtain ⟨r, hpair⟩ := h.paired x p hp
    have ht := removed h hp hpair
    rw [List.foldl_cons]
    obtain ⟨hlinked, hnil, htallied, hsub⟩ := ih (ht.linked h hp hpair)
      (by rw [ht.self, hps, List.erase_cons_head]) fun y hy => ht.tallied hpair hy (hs y hy)
    exact ⟨hlinked, hnil, htallied, fun y => (hsub y).trans (ht.sublist y)⟩

theorem mediaEntityRemoveLinks_spec (h : Linked s) (hs : ∀ y, Tallied s y) (entity : Fin n) :
    Linked (mediaEntityRemoveLinks s entity) ∧ (∀ y, Tallied (mediaEntityRemoveLinks s entity) y) ∧
      ∀ y, ((mediaEntityRemoveLinks s entity).links y).Sublist (s.links y) := by
  obtain ⟨hlinked, hnil, htallied, hsub⟩ := removeLoop_spec (s.links entity) h rfl fun y _ => hs y
  unfold mediaEntityRemoveLinks
  dsimp only
  generalize (s.links entity).foldl (mediaEntityRemoveLink entity) s = u at hlinked hnil htallied hsub ⊢
  refine ⟨⟨hlinked.nodup, hlinked.home, hlinked.ends, fun y p hp => ?_⟩, fun y => ?_, hsub⟩
  · obtain ⟨r, hpair⟩ := hlinked.paired y p hp
    exact ⟨r, hpair.of_eq rfl rfl hpair.mem⟩
  · rcases eq_or_ne y entity with rfl | hy
    · constructor
      · show Function.update u.numLinks y 0 y = UInt16.ofNat (u.links y).length
        rw [Function.update_self, hnil]
        rfl
      · show Function.update u.numBacklinks y 0 y = UInt16.ofNat ((u.links y).countP _)
        rw [Function.update_self, hnil]
        rfl
    · constructor
      · exact (Function.update_of_ne hy _ _).trans (htallied y hy).numLinks
      · exact (Function.update_of_ne hy _ _).trans (htallied y hy).numBacklinks

end Removing

/-! ## Creating -/

section Creating

variable {n : ℕ} {s t : LinkSys n} {source sink : MediaPad n} {flags : UInt32} {a b : LinkPtr}

@[simp] theorem mediaAddLink_links (s : LinkSys n) (head : Fin n) (a : LinkPtr) (l : MediaLink n) :
    (mediaAddLink s head a l).links = Function.update s.links head (s.links head ++ [a]) := rfl

@[simp] theorem mediaAddLink_link (s : LinkSys n) (head : Fin n) (a : LinkPtr) (l : MediaLink n) :
    (mediaAddLink s head a l).link = Function.update s.link a l := rfl

@[simp] theorem joinLinks_links (s : LinkSys n) (x y : Fin n) (a b : LinkPtr) : (joinLinks s x y a b).links = s.links :=
  rfl

theorem joinLinks_link (s : LinkSys n) (x y : Fin n) {a b : LinkPtr} (hab : a ≠ b) (q : LinkPtr) :
    (joinLinks s x y a b).link q =
      if q = a then { s.link a with reverse := some b }
      else if q = b then { s.link b with reverse := some a } else s.link q := by
  have hb : Function.update s.link a { s.link a with reverse := some b } b = s.link b :=
    Function.update_of_ne hab.symm _ _
  unfold joinLinks
  dsimp only
  rw [hb]
  rcases eq_or_ne q b with rfl | hqb
  · rw [if_neg hab.symm, if_pos rfl, Function.update_self]
  · rw [Function.update_of_ne hqb, if_neg hqb]
    rcases eq_or_ne q a with rfl | hqa
    · rw [Function.update_self, if_pos rfl]
    · rw [Function.update_of_ne hqa, if_neg hqa]

theorem joinLinks_numLinks (s : LinkSys n) {x y : Fin n} (a b : LinkPtr) (hxy : x ≠ y) (z : Fin n) :
    (joinLinks s x y a b).numLinks z = if z = x ∨ z = y then s.numLinks z + 1 else s.numLinks z := by
  unfold joinLinks
  dsimp only
  rw [Function.update_of_ne hxy]
  rcases eq_or_ne z x with rfl | hx
  · rw [if_pos (Or.inl rfl), Function.update_self]
  · rw [Function.update_of_ne hx]
    rcases eq_or_ne z y with rfl | hy
    · rw [if_pos (Or.inr rfl), Function.update_self]
    · rw [Function.update_of_ne hy, if_neg fun h => h.elim hx hy]

theorem joinLinks_numBacklinks (s : LinkSys n) (x y : Fin n) (a b : LinkPtr) (z : Fin n) :
    (joinLinks s x y a b).numBacklinks z = if z = y then s.numBacklinks z + 1 else s.numBacklinks z := by
  unfold joinLinks
  dsimp only
  rcases eq_or_ne z y with rfl | hy
  · rw [if_pos rfl, Function.update_self]
  · rw [Function.update_of_ne hy, if_neg hy]

/-- What a link that is made adds. -/
structure Added (s t : LinkSys n) (source sink : MediaPad n) (flags : UInt32) (a b : LinkPtr) : Prop where
  onSource : t.links source.entity = s.links source.entity ++ [a]
  onSink : t.links sink.entity = s.links sink.entity ++ [b]
  others : ∀ y, y ≠ source.entity → y ≠ sink.entity → t.links y = s.links y
  link : t.link a = ⟨source, sink, some b, flags &&& ~~~MEDIA_LNK_FL_INTERFACE_LINK, false⟩
  backlink : t.link b = ⟨source, sink, some a, flags, true⟩
  old : ∀ q, q ≠ a → q ≠ b → t.link q = s.link q
  numLinks : ∀ y, t.numLinks y = if y = source.entity ∨ y = sink.entity then s.numLinks y + 1 else s.numLinks y
  numBacklinks : ∀ y, t.numBacklinks y = if y = sink.entity then s.numBacklinks y + 1 else s.numBacklinks y

theorem added (s : LinkSys n) (flags : UInt32) (hne : source.entity ≠ sink.entity) (hab : a ≠ b) :
    Added s (mediaCreatePadLink s source sink flags (some a) (some b)).1 source sink flags a b := by
  unfold mediaCreatePadLink
  dsimp only
  refine ⟨?_, ?_, fun y hx hy => ?_, ?_, ?_, fun q ha hb => ?_, fun y => joinLinks_numLinks _ a b hne y,
    fun y => joinLinks_numBacklinks _ _ _ a b y⟩
  · rw [joinLinks_links, mediaAddLink_links, Function.update_of_ne hne, mediaAddLink_links, Function.update_self]
  · rw [joinLinks_links, mediaAddLink_links, Function.update_self, mediaAddLink_links,
      Function.update_of_ne hne.symm]
  · rw [joinLinks_links, mediaAddLink_links, Function.update_of_ne hy, mediaAddLink_links, Function.update_of_ne hx]
  · rw [joinLinks_link _ _ _ hab, if_pos rfl, mediaAddLink_link, Function.update_of_ne hab, mediaAddLink_link,
      Function.update_self]
  · rw [joinLinks_link _ _ _ hab, if_neg hab.symm, if_pos rfl, mediaAddLink_link, Function.update_self]
  · rw [joinLinks_link _ _ _ hab, if_neg ha, if_neg hb, mediaAddLink_link, Function.update_of_ne hb,
      mediaAddLink_link, Function.update_of_ne ha]

/-- The enabled flag survives in a link, which is no interface link. -/
theorem enabled_and_not_interface (flags : UInt32) :
    flags &&& MEDIA_LNK_FL_ENABLED =
      flags &&& ~~~MEDIA_LNK_FL_INTERFACE_LINK &&& MEDIA_LNK_FL_ENABLED := by
  rw [UInt32.and_assoc]
  rfl

/-- The nodes are the old ones and the two new ones. -/
theorem Added.mem_iff (ht : Added s t source sink flags a b) (hne : source.entity ≠ sink.entity) (y : Fin n)
    (q : LinkPtr) :
    q ∈ t.links y ↔ q ∈ s.links y ∨ y = source.entity ∧ q = a ∨ y = sink.entity ∧ q = b := by
  rcases eq_or_ne y source.entity with rfl | hx
  · rw [ht.onSource, List.mem_append, List.mem_singleton]
    exact or_congr_right ⟨fun h => Or.inl ⟨rfl, h⟩, fun h => h.elim And.right fun h => absurd h.1 hne⟩
  · rcases eq_or_ne y sink.entity with rfl | hy
    · rw [ht.onSink, List.mem_append, List.mem_singleton]
      exact or_congr_right ⟨fun h => Or.inr ⟨rfl, h⟩, fun h => h.elim (fun h => absurd h.1 hx) And.right⟩
    · rw [ht.others y hx hy]
      exact ⟨Or.inl, fun h => h.elim id fun h => h.elim (fun h => absurd h.1 hx) fun h => absurd h.1 hy⟩

/-- A node of a list is not in free memory. -/
theorem ne_of_free {y : Fin n} {q : LinkPtr} (ha : Free s a) (hq : q ∈ s.links y) : q ≠ a := by
  rintro rfl
  exact ha y hq

/-- With a new pair the links are still paired. -/
theorem Added.linked (h : Linked s) (ht : Added s t source sink flags a b) (hne : source.entity ≠ sink.entity)
    (ha : Free s a) (hb : Free s b) : Linked t := by
  have hold {y : Fin n} {q : LinkPtr} (hq : q ∈ s.links y) : t.link q = s.link q :=
    ht.old q (ne_of_free ha hq) (ne_of_free hb hq)
  refine ⟨fun y => ?_, fun y q hq => ?_, fun y q hq => ?_, fun y q hq => ?_⟩
  · have happ {c : LinkPtr} (hc : Free s c) : (s.links y ++ [c]).Nodup :=
      List.nodup_append.mpr ⟨h.nodup y, List.nodup_singleton c, fun q hq q' hq' heq =>
        hc y (List.mem_singleton.mp hq' ▸ heq ▸ hq)⟩
    rcases eq_or_ne y source.entity with rfl | hx
    · rw [ht.onSource]
      exact happ ha
    · rcases eq_or_ne y sink.entity with rfl | hy
      · rw [ht.onSink]
        exact happ hb
      · rw [ht.others y hx hy]
        exact h.nodup y
  · rcases (ht.mem_iff hne y q).mp hq with hq | ⟨rfl, rfl⟩ | ⟨rfl, rfl⟩
    · rw [hold hq]
      exact h.home y q hq
    · rw [ht.link]
      rfl
    · rw [ht.backlink]
      rfl
  · rcases (ht.mem_iff hne y q).mp hq with hq | ⟨rfl, rfl⟩ | ⟨rfl, rfl⟩
    · rw [hold hq]
      exact h.ends y q hq
    · rw [ht.link]
      exact hne
    · rw [ht.backlink]
      exact hne
  · rcases (ht.mem_iff hne y q).mp hq with hq | ⟨rfl, rfl⟩ | ⟨rfl, rfl⟩
    · obtain ⟨r, hpair⟩ := h.paired y q hq
      exact ⟨r, hpair.of_eq (hold hq) (hold hpair.mem) ((ht.mem_iff hne _ r).mpr (Or.inl hpair.mem))⟩
    · refine ⟨b, ?_, ?_, ?_, ?_, ?_, ?_, ?_⟩
      · rw [ht.link]
      · rw [ht.link, MediaLink.otherEnd, if_pos rfl, ht.onSink]
        exact List.mem_append_right _ (List.mem_singleton_self b)
      · rw [ht.backlink]
      · rw [ht.link, ht.backlink]
      · rw [ht.link, ht.backlink]
      · rw [ht.link, ht.backlink]
        exact enabled_and_not_interface flags
      · rw [ht.link, ht.backlink]
        rfl
    · refine ⟨a, ?_, ?_, ?_, ?_, ?_, ?_, ?_⟩
      · rw [ht.backlink]
      · rw [ht.backlink, MediaLink.otherEnd, if_neg hne, ht.onSource]
        exact List.mem_append_right _ (List.mem_singleton_self a)
      · rw [ht.link]
      · rw [ht.link, ht.backlink]
      · rw [ht.link, ht.backlink]
      · rw [ht.link, ht.backlink]
        exact (enabled_and_not_interface flags).symm
      · rw [ht.link, ht.backlink]
        rfl

/-- The counters count the new nodes. -/
theorem Added.tallied (ht : Added s t source sink flags a b) (ha : Free s a) (hb : Free s b) {y : Fin n}
    (hs : Tallied s y) : Tallied t y := by
  have hback : (s.links y).countP (fun p => (t.link p).isBacklink) =
      (s.links y).countP fun p => (s.link p).isBacklink :=
    List.countP_congr fun q hq => by rw [ht.old q (ne_of_free ha hq) (ne_of_free hb hq)]
  constructor
  · rw [ht.numLinks, hs.numLinks]
    rcases eq_or_ne y source.entity with rfl | hx
    · rw [if_pos (Or.inl rfl), ht.onSource, List.length_append, List.length_singleton, UInt16.ofNat_add]
      rfl
    · rcases eq_or_ne y sink.entity with rfl | hy
      · rw [if_pos (Or.inr rfl), ht.onSink, List.length_append, List.length_singleton, UInt16.ofNat_add]
        rfl
      · rw [if_neg fun h => h.elim hx hy, ht.others y hx hy]
  · rw [ht.numBacklinks, hs.numBacklinks]
    rcases eq_or_ne y sink.entity with rfl | hy
    · rw [if_pos rfl, ht.onSink, List.countP_append, hback, List.countP_singleton, ht.backlink, if_pos rfl,
        UInt16.ofNat_add]
      rfl
    · rw [if_neg hy]
      rcases eq_or_ne y source.entity with rfl | hx
      · rw [ht.onSource, List.countP_append, hback, List.countP_singleton, ht.link, if_neg Bool.false_ne_true]
        rfl
      · rw [ht.others y hx hy, hback]

/-- Two lists have got longer, by one node each. -/
theorem Added.length_lt {N : ℕ} (ht : Added s t source sink flags a b) (hs : ∀ x, (s.links x).length < N)
    (hroom : (s.links source.entity).length + 1 < N ∧ (s.links sink.entity).length + 1 < N) (x : Fin n) :
    (t.links x).length < N := by
  rcases eq_or_ne x source.entity with rfl | hx
  · rw [ht.onSource, List.length_append]
    exact hroom.1
  · rcases eq_or_ne x sink.entity with rfl | hy
    · rw [ht.onSink, List.length_append]
      exact hroom.2
    · rw [ht.others x hx hy]
      exact hs x

/-- A link whose backlink cannot be allocated is taken off the list again. -/
theorem mediaCreatePadLink_undone (s : LinkSys n) (source sink : MediaPad n) (flags : UInt32) (ha : Free s a) :
    (mediaCreatePadLink s source sink flags (some a) none).1 =
      { s with
        link := Function.update s.link a
          ⟨source, sink, none, flags &&& ~~~MEDIA_LNK_FL_INTERFACE_LINK, false⟩ } := by
  have herase : (s.links source.entity ++ [a]).erase a = s.links source.entity := by
    rw [List.erase_append_right _ (ha source.entity), List.erase_cons_head, List.append_nil]
  have hlinks : Function.update (Function.update s.links source.entity (s.links source.entity ++ [a])) source.entity
      ((s.links source.entity ++ [a]).erase a) = s.links := by
    rw [Function.update_idem, herase, Function.update_eq_self]
  unfold mediaCreatePadLink mediaEntityRemoveLink
  dsimp only
  rw [removeReverse_of_notMem]
  · rw [mediaAddLink_links, Function.update_self, hlinks]
    rfl
  · rw [mediaAddLink_link, Function.update_self]
    exact fun q _ => Option.some_ne_none q

/-- **A link that is not made leaves the lists and their nodes alone.** -/
theorem mediaCreatePadLink_fails {a b : Option LinkPtr} (ha : ∀ p ∈ a, Free s p)
    (hret : (mediaCreatePadLink s source sink flags a b).2 ≠ 0) :
    (mediaCreatePadLink s source sink flags a b).1.links = s.links ∧
      (mediaCreatePadLink s source sink flags a b).1.numLinks = s.numLinks ∧
      (mediaCreatePadLink s source sink flags a b).1.numBacklinks = s.numBacklinks ∧
      ∀ x, ∀ p ∈ s.links x, (mediaCreatePadLink s source sink flags a b).1.link p = s.link p := by
  rcases a with _ | a
  · exact ⟨rfl, rfl, rfl, fun _ _ _ => rfl⟩
  · rcases b with _ | b
    · rw [mediaCreatePadLink_undone s source sink flags (ha a rfl)]
      exact ⟨rfl, rfl, rfl, fun x p hp => Function.update_of_ne (ne_of_free (ha a rfl) hp) _ _⟩
    · exact absurd rfl hret

end Creating

/-! ## Setting up -/

section SettingUp

variable {n : ℕ} {s t : LinkSys n} {x : Fin n} {p r : LinkPtr} {flags : UInt32}

theorem storeFlags_links (s : LinkSys n) (p : LinkPtr) (flags : UInt32) : (storeFlags s p flags).links = s.links := by
  unfold storeFlags
  dsimp only
  split <;> rfl

theorem storeFlags_counters (s : LinkSys n) (p : LinkPtr) (flags : UInt32) :
    (storeFlags s p flags).numLinks = s.numLinks ∧ (storeFlags s p flags).numBacklinks = s.numBacklinks := by
  unfold storeFlags
  dsimp only
  split <;> exact ⟨rfl, rfl⟩

/-- Both nodes of the pair get the flags. -/
theorem storeFlags_link (hpair : Paired s x p r) (flags : UInt32) (q : LinkPtr) :
    (storeFlags s p flags).link q = if q = p ∨ q = r then { s.link q with flags := flags } else s.link q := by
  have hrev : (Function.update s.link p { s.link p with flags := flags } p).reverse = some r := by
    rw [Function.update_self]
    exact hpair.reverse
  unfold storeFlags
  dsimp only
  rw [hrev]
  dsimp only
  rw [Function.update_self, Function.update_of_ne hpair.ne.symm]
  rcases eq_or_ne q r with rfl | hr
  · rw [Function.update_self, if_pos (Or.inr rfl)]
  · rw [Function.update_of_ne hr]
    rcases eq_or_ne q p with rfl | hp
    · rw [Function.update_self, if_pos (Or.inl rfl)]
    · rw [Function.update_of_ne hp, if_neg fun h => h.elim hp hr]

/-- The flags do not matter for anything but the flags. -/
theorem storeFlags_same (hpair : Paired s x p r) (flags : UInt32) (q : LinkPtr) :
    ((storeFlags s p flags).link q).source = (s.link q).source ∧
      ((storeFlags s p flags).link q).sink = (s.link q).sink ∧
      ((storeFlags s p flags).link q).reverse = (s.link q).reverse ∧
      ((storeFlags s p flags).link q).isBacklink = (s.link q).isBacklink := by
  rw [storeFlags_link hpair]
  split_ifs <;> exact ⟨rfl, rfl, rfl, rfl⟩

/-- A pair gets its flags together. -/
theorem storeFlags_paired (hpair : Paired s x p r) (flags : UInt32) {y : Fin n} {q r' : LinkPtr}
    (h : Paired s y q r') : Paired (storeFlags s p flags) y q r' := by
  obtain ⟨hsource, hsink, hreverse, hback⟩ := storeFlags_same hpair flags q
  obtain ⟨hsource', hsink', hreverse', hback'⟩ := storeFlags_same hpair flags r'
  refine ⟨hreverse.trans h.reverse, ?_, hreverse'.trans h.back, ?_, ?_, ?_, ?_⟩
  · rw [storeFlags_links, MediaLink.otherEnd, hsource, hsink]
    exact h.mem
  · rw [hsource', hsource, h.source]
  · rw [hsink', hsink, h.sink]
  · rw [storeFlags_link hpair, storeFlags_link hpair]
    by_cases hq : q = p ∨ q = r
    · have hr' : r' = p ∨ r' = r := by
        rcases hq with rfl | rfl
        · exact Or.inr (Option.some.inj (h.reverse.symm.trans hpair.reverse))
        · exact Or.inl (Option.some.inj (h.reverse.symm.trans hpair.back))
      rw [if_pos hq, if_pos hr']
    · obtain ⟨hp, hr⟩ := not_or.mp hq
      obtain ⟨hp', hr'⟩ := hpair.disjoint h hp hr
      rw [if_neg hq, if_neg (not_or.mpr ⟨hp', hr'⟩)]
      exact h.enabled
  · rw [hback', hback, h.isBacklink]

theorem storeFlags_linked (h : Linked s) (hpair : Paired s x p r) (flags : UInt32) : Linked (storeFlags s p flags) where
  nodup := fun y => by
    rw [storeFlags_links]
    exact h.nodup y
  home := fun y q hq => by
    rw [storeFlags_links] at hq
    obtain ⟨hsource, hsink, -, hback⟩ := storeFlags_same hpair flags q
    rw [MediaLink.home, hsource, hsink, hback]
    exact h.home y q hq
  ends := fun y q hq => by
    rw [storeFlags_links] at hq
    obtain ⟨hsource, hsink, -, -⟩ := storeFlags_same hpair flags q
    rw [hsource, hsink]
    exact h.ends y q hq
  paired := fun y q hq => by
    rw [storeFlags_links] at hq
    obtain ⟨r', h'⟩ := h.paired y q hq
    exact ⟨r', storeFlags_paired hpair flags h'⟩

theorem storeFlags_tallied (hpair : Paired s x p r) (flags : UInt32) {y : Fin n} (hs : Tallied s y) :
    Tallied (storeFlags s p flags) y := by
  have hback : (fun q => ((storeFlags s p flags).link q).isBacklink) = fun q => (s.link q).isBacklink :=
    funext fun q => (storeFlags_same hpair flags q).2.2.2
  constructor
  · rw [(storeFlags_counters s p flags).1, storeFlags_links]
    exact hs.numLinks
  · rw [(storeFlags_counters s p flags).2, storeFlags_links, hback]
    exact hs.numBacklinks

/-- A call changes nothing, or it returns 0 and stores the flags. -/
theorem mediaEntitySetupLink_cases (s : LinkSys n) (p : Option LinkPtr) (flags : UInt32) (notify : Option ℤ)
    (sourceSetup sinkSetup : ℤ) :
    (mediaEntitySetupLink s p flags notify sourceSetup sinkSetup).1 = s ∨
      ∃ q ∈ p, mediaEntitySetupLink s p flags notify sourceSetup sinkSetup = (storeFlags s q flags, 0) := by
  rcases p with _ | p
  · exact Or.inl rfl
  · unfold mediaEntitySetupLink mediaEntitySetupLinkNotify
    dsimp only
    split_ifs
    · exact Or.inl rfl
    · exact Or.inl rfl
    · exact Or.inl rfl
    · exact Or.inl rfl
    · exact Or.inl rfl
    · exact Or.inl rfl
    · exact Or.inl rfl
    · exact Or.inl rfl
    · exact Or.inr ⟨p, rfl, rfl⟩

end SettingUp

/-! ## Runs -/

section Runs

variable {n : ℕ} {s t : LinkSys n}

theorem linked_initial (numPads : Fin n → ℕ) (link : LinkPtr → MediaLink n) :
    Linked (LinkSys.initial numPads link) :=
  ⟨fun _ => List.nodup_nil, fun _ _ hp => absurd hp List.not_mem_nil, fun _ _ hp => absurd hp List.not_mem_nil,
    fun _ _ hp => absurd hp List.not_mem_nil⟩

theorem tallied_initial (numPads : Fin n → ℕ) (link : LinkPtr → MediaLink n) (x : Fin n) :
    Tallied (LinkSys.initial numPads link) x := ⟨rfl, rfl⟩

/-- The lists and the nodes of the counters are the same. -/
theorem Tallied.of_eq {x : Fin n} (h : Tallied s x) (hlinks : t.links = s.links) (hnum : t.numLinks = s.numLinks)
    (hback : t.numBacklinks = s.numBacklinks) (hlink : ∀ p ∈ s.links x, t.link p = s.link p) : Tallied t x := by
  constructor
  · rw [hnum, hlinks]
    exact h.numLinks
  · rw [hback, hlinks, h.numBacklinks]
    exact congrArg UInt16.ofNat (List.countP_congr fun p hp => by rw [hlink p hp])

theorem Linked.of_eq (h : Linked s) (hlinks : t.links = s.links)
    (hlink : ∀ x, ∀ p ∈ s.links x, t.link p = s.link p) : Linked t where
  nodup := fun x => by
    rw [hlinks]
    exact h.nodup x
  home := fun x p hp => by
    rw [hlinks] at hp
    rw [hlink x p hp]
    exact h.home x p hp
  ends := fun x p hp => by
    rw [hlinks] at hp
    rw [hlink x p hp]
    exact h.ends x p hp
  paired := fun x p hp => by
    rw [hlinks] at hp
    obtain ⟨r, hpair⟩ := h.paired x p hp
    exact ⟨r, hpair.of_eq (hlink x p hp) (hlink _ r hpair.mem) (by rw [hlinks]; exact hpair.mem)⟩

/-- The lists are no longer than their counters can tell. -/
def Short (s : LinkSys n) : Prop := ∀ x, (s.links x).length < 2 ^ 16

/-- **Every call keeps the pairs and the counters**, as far as they go. -/
theorem linkCall_linked {e : LinkAct n} {ret : ℤ} (h : Linked s) (hs : ∀ x, Tallied s x)
    (ht : linkCall s e = some (t, ret)) :
    Linked t ∧ (∀ x, Tallied t x) ∧ (Short s → Countable s e → Short t) := by
  cases e with
  | createPadLink source sink flags a b =>
      rw [linkCall] at ht
      split_ifs at ht with hcond
      obtain ⟨hne, -, -, ha, hb, hab⟩ := hcond
      have htt := congrArg Prod.fst (Option.some.inj ht)
      by_cases hret : (mediaCreatePadLink s source sink flags a b).2 = 0
      · rcases a with _ | a
        · exact absurd hret (show (-ENOMEM : ℤ) ≠ 0 by decide)
        · rcases b with _ | b
          · exact absurd hret (show (-ENOMEM : ℤ) ≠ 0 by decide)
          · have hadd := added s flags hne fun heq => hab a rfl (congrArg some heq.symm)
            rw [htt] at hadd
            exact ⟨hadd.linked h hne (ha a rfl) (hb b rfl), fun x => hadd.tallied (ha a rfl) (hb b rfl) (hs x),
              fun hshort hroom x => hadd.length_lt hshort hroom x⟩
      · obtain ⟨hlinks, hnum, hback, hlink⟩ := mediaCreatePadLink_fails ha hret
        rw [htt] at hlinks hnum hback hlink
        exact ⟨h.of_eq hlinks hlink, fun x => (hs x).of_eq hlinks hnum hback (hlink x),
          fun hshort _ x => hlinks ▸ hshort x⟩
  | setupLink p flags notify sourceSetup sinkSetup =>
      rw [linkCall] at ht
      split_ifs at ht with hlive
      have htt := congrArg Prod.fst (Option.some.inj ht)
      rcases mediaEntitySetupLink_cases s p flags notify sourceSetup sinkSetup with hsame | ⟨q, hq, hstore⟩
      · rw [hsame] at htt
        subst htt
        exact ⟨h, hs, fun hshort _ => hshort⟩
      · obtain ⟨x, hx⟩ := not_forall.mp (hlive q hq)
        obtain ⟨r, hpair⟩ := h.paired x q (not_not.mp hx)
        rw [hstore] at htt
        subst htt
        exact ⟨storeFlags_linked h hpair flags, fun y => storeFlags_tallied hpair flags (hs y),
          fun hshort _ y => (storeFlags_links s q flags).symm ▸ hshort y⟩
  | removeLinks entity =>
      have htt := congrArg Prod.fst (Option.some.inj ht)
      subst htt
      obtain ⟨hlinked, htallied, hsub⟩ := mediaEntityRemoveLinks_spec h hs entity
      exact ⟨hlinked, htallied, fun hshort _ y => (hsub y).length_le.trans_lt (hshort y)⟩
  | stream entity count =>
      have htt := congrArg Prod.fst (Option.some.inj ht)
      subst htt
      exact ⟨h.of_eq rfl fun _ _ _ => rfl, fun x => (hs x).of_eq rfl rfl rfl fun _ _ => rfl, fun hshort _ => hshort⟩

/-- **A call that fails changes nothing.** -/
theorem linkCall_fails {e : LinkAct n} {ret : ℤ} (ht : linkCall s e = some (t, ret)) (hret : ret ≠ 0) :
    t.links = s.links ∧ ∀ x, ∀ p ∈ s.links x, t.link p = s.link p := by
  cases e with
  | createPadLink source sink flags a b =>
      rw [linkCall] at ht
      split_ifs at ht with hcond
      have heq := Option.some.inj ht
      have hfail : (mediaCreatePadLink s source sink flags a b).2 ≠ 0 := by
        rw [heq]
        exact hret
      obtain ⟨hlinks, -, -, hlink⟩ := mediaCreatePadLink_fails hcond.2.2.2.1 hfail
      rw [heq] at hlinks hlink
      exact ⟨hlinks, hlink⟩
  | setupLink p flags notify sourceSetup sinkSetup =>
      rw [linkCall] at ht
      split_ifs at ht
      have heq := Option.some.inj ht
      rcases mediaEntitySetupLink_cases s p flags notify sourceSetup sinkSetup with hsame | ⟨q, -, hstore⟩
      · rw [heq] at hsame
        subst hsame
        exact ⟨rfl, fun _ _ _ => rfl⟩
      · rw [heq] at hstore
        exact absurd (congrArg Prod.snd hstore) hret
  | removeLinks entity => exact absurd (congrArg Prod.snd (Option.some.inj ht)).symm hret
  | stream entity count => exact absurd (congrArg Prod.snd (Option.some.inj ht)).symm hret

/-- Where the lists are short, the counters are the lengths. -/
theorem linksKept_of_short (h : Linked s) (hs : ∀ x, Tallied s x) (hshort : Short s) : LinksKept s where
  paired := h.paired
  numLinks := fun x => by
    rw [(hs x).numLinks, UInt16.toNat_ofNat']
    exact Nat.mod_eq_of_lt (hshort x)
  numBacklinks := fun x => by
    rw [(hs x).numBacklinks, UInt16.toNat_ofNat']
    exact Nat.mod_eq_of_lt ((List.countP_le_length ..).trans_lt (hshort x))
  fails := fun _ _ _ => linkCall_fails

/-- **The links are kept in every run** in which no list gets too long for its counter. -/
theorem linksKept_run {numPads : Fin n → ℕ} {link : LinkPtr → MediaLink n} {es : List (LinkAct n)}
    (hroom : Along linkStep Countable (LinkSys.initial numPads link) es)
    (h : run linkStep (LinkSys.initial numPads link) es = some s) : LinksKept s := by
  have hinv : Linked s ∧ (∀ x, Tallied s x) ∧ Short s := by
    refine run_inv_along (I := fun s => Linked s ∧ (∀ x, Tallied s x) ∧ Short s) ?_ ?_ hroom h
    · rintro s e t ⟨hlinked, htallied, hshort⟩ hcount hstep
      obtain ⟨⟨t', ret⟩, hcall, rfl⟩ := Option.map_eq_some_iff.mp hstep
      obtain ⟨hlinked', htallied', hshort'⟩ := linkCall_linked hlinked htallied hcall
      exact ⟨hlinked', htallied', hshort' hshort hcount⟩
    · exact ⟨linked_initial numPads link, tallied_initial numPads link, fun _ => Nat.two_pow_pos 16⟩
  exact linksKept_of_short hinv.1 hinv.2.1 hinv.2.2

instance (s : LinkSys n) : (e : LinkAct n) → Decidable (Countable s e)
  | .createPadLink _ _ _ (some _) (some _) => inferInstanceAs (Decidable (_ ∧ _))
  | .createPadLink _ _ _ (some _) none | .createPadLink _ _ _ none _ | .setupLink _ _ _ _ _ | .removeLinks _ | .stream _ _ => inferInstanceAs (Decidable True)

end Runs

/-! ## Two entities -/

/-- A link from a pad of the first entity to one of the second, at the addresses `2 * k` and `2 * k + 1`. -/
def pairLink (k : ℕ) : LinkAct 2 := .createPadLink ⟨0, 0⟩ ⟨1, 0⟩ MEDIA_LNK_FL_ENABLED (some (2 * k)) (some (2 * k + 1))

/-- Two entities with a pad each. -/
def pairSys : LinkSys 2 :=
  .initial (fun _ => 1) fun _ => ⟨⟨0, 0⟩, ⟨0, 0⟩, none, 0, false⟩

/-- Links are made, set up from either end, and removed; some calls fail. -/
def pairRun : List (LinkAct 2) :=
  [pairLink 0, .createPadLink ⟨1, 0⟩ ⟨0, 0⟩ 0 (some 2) none, pairLink 1, .setupLink (some 3) 0 none 0 (-5),
    .setupLink (some 3) 0 none 0 0, .removeLinks 1, pairLink 2]

theorem linksKept_run_pairRun : ∃ s, run linkStep pairSys pairRun = some s ∧ LinksKept s := by
  obtain ⟨s, hs⟩ := Option.isSome_iff_exists.mp
    (show (run linkStep pairSys pairRun).isSome = true by decide +kernel)
  have hroom : Along linkStep Countable pairSys pairRun := by decide +kernel
  exact ⟨s, hs, linksKept_run hroom hs⟩

/-- So many links one after the other. -/
def manyLinks (k : ℕ) : List (LinkAct 2) := (List.range k).map pairLink

/-- Nothing stops the list from growing. -/
theorem run_manyLinks (k : ℕ) : ∃ s, run linkStep pairSys (manyLinks k) = some s ∧ Linked s ∧
    (∀ x, Tallied s x) ∧ s.numPads = pairSys.numPads ∧ (∀ x, (s.links x).length = k) ∧
    ∀ x, ∀ p : ℕ, p ∈ s.links x → p < 2 * k := by
  induction k with
  | zero =>
      exact ⟨pairSys, rfl, linked_initial _ _, fun x => tallied_initial _ _ x, rfl, fun _ => rfl,
        fun _ _ hp => absurd hp List.not_mem_nil⟩
  | succ k ih =>
      obtain ⟨s, hrun, hlinked, htallied, hpads, hlen, hlt⟩ := ih
      have ha : Free s (2 * k) := fun x hx => lt_irrefl _ (hlt x _ hx)
      have hb : Free s (2 * k + 1) := fun x hx => by
        have hlast : 2 * k + 1 < 2 * k := hlt x _ hx
        omega
      have hne : (⟨0, 0⟩ : MediaPad 2).entity ≠ (⟨1, 0⟩ : MediaPad 2).entity := by decide
      have hcall : linkCall s (pairLink k) =
          some (mediaCreatePadLink s ⟨0, 0⟩ ⟨1, 0⟩ MEDIA_LNK_FL_ENABLED (some (2 * k)) (some (2 * k + 1))) := by
        refine if_pos ⟨hne, ?_, ?_, ?_, ?_, ?_⟩
        · rw [hpads]
          exact Nat.one_pos
        · rw [hpads]
          exact Nat.one_pos
        · rintro _ ⟨⟩
          exact ha
        · rintro _ ⟨⟩
          exact hb
        · rintro _ ⟨⟩ h
          exact Nat.succ_ne_self (2 * k) (Option.some.inj h)
      have hadd : Added s _ ⟨0, 0⟩ ⟨1, 0⟩ MEDIA_LNK_FL_ENABLED (2 * k) (2 * k + 1) :=
        added s MEDIA_LNK_FL_ENABLED hne (Nat.succ_ne_self (2 * k)).symm
      obtain ⟨hlinked', htallied', -⟩ := linkCall_linked hlinked htallied hcall
      refine ⟨_, ?_, hlinked', htallied', hpads, fun x => ?_, fun x p hp => ?_⟩
      · rw [manyLinks, List.range_succ, List.map_append, List.map_singleton, run_concat]
        exact (congrArg (fun o => o.bind fun t => linkStep t (pairLink k)) hrun).trans
          (congrArg (Option.map Prod.fst) hcall)
      · rcases Fin.exists_fin_two.mp ⟨x, rfl⟩ with rfl | rfl
        · exact (congrArg List.length hadd.onSource).trans (by rw [List.length_append, hlen]; rfl)
        · exact (congrArg List.length hadd.onSink).trans (by rw [List.length_append, hlen]; rfl)
      · rcases (hadd.mem_iff hne x p).mp hp with hp | ⟨-, hp⟩ | ⟨-, hp⟩
        · have hold := hlt x p hp
          omega
        · have hnew : p = 2 * k := hp
          omega
        · have hnew : p = 2 * k + 1 := hp
          omega

/-- 65536 links between two entities: the counters say that there is none. -/
theorem not_linksKept : ∃ s, run linkStep pairSys (manyLinks 65536) = some s ∧ (s.links 0).length = 65536 ∧
    (s.numLinks 0).toNat = 0 ∧ ¬LinksKept s := by
  obtain ⟨s, hrun, -, htallied, -, hlen, -⟩ := run_manyLinks 65536
  have hzero : (s.numLinks 0).toNat = 0 := by
    rw [(htallied 0).numLinks, hlen 0, UInt16.toNat_ofNat']
  refine ⟨s, hrun, hlen 0, hzero, fun h => ?_⟩
  have hnum := h.numLinks 0
  rw [hzero, hlen 0] at hnum
  exact absurd hnum (by decide)

end Links
end Mc
end TbsMedia
