import Mathlib

/-!
# Walks over a media graph

A media graph has entities with pads, and links between the pads.  A walk visits the entities that enabled
links lead to, depth first, with a stack of bounded depth.

What has been seen has been followed, but for the links that remain on the stack (`Followed`).  When the stack
is empty and was never full, what has been seen is therefore closed under links, and so contains all that can be
reached.  Each turn leaves less to do (`todo`), which ends the walk.

* `MediaGraph`: the entities and links, but for the flags of the links.
* `mediaGraphWalkStart`, `mediaGraphWalkIter`, `mediaGraphWalk`: the walk.
* `nodup_visits`: no entity is visited twice.
* `visits_congr`: a walk depends on the links of the entities that it visits, and on no others.
* `mem_visits_iff`: it visits what can be reached, unless a path is too long for the stack.
-/

namespace TbsMedia
namespace Mc

def MEDIA_ENTITY_ENUM_MAX_DEPTH : ℕ := 16

def MEDIA_LNK_FL_ENABLED : UInt32 := 0x1
def MEDIA_LNK_FL_IMMUTABLE : UInt32 := 0x2
def MEDIA_LNK_FL_DYNAMIC : UInt32 := 0x4

/-! ## The graph -/

/-- A pad of an entity. -/
structure MediaPad (n : ℕ) where
  entity : Fin n
  index : ℕ
deriving DecidableEq

abbrev LinkPtr := ℕ

/-- The entities of a media device and the links between their pads.  A link is on the list of its source, and
its backlink on the list of its sink. -/
structure MediaGraph (n : ℕ) where
  links : Fin n → List LinkPtr
  source : LinkPtr → MediaPad n
  sink : LinkPtr → MediaPad n
  reverse : LinkPtr → LinkPtr
  padFlags : MediaPad n → UInt32
  numPads : Fin n → ℕ
  /-- The entity has a `link_validate` operation. -/
  linkValidate : Fin n → Bool
  ends : ∀ x, ∀ l ∈ links x, (source l).entity = x ∨ (sink l).entity = x
  reverse_source : ∀ l, source (reverse l) = source l
  reverse_sink : ∀ l, sink (reverse l) = sink l

/-- `media_entity_other`. -/
def mediaEntityOther {n : ℕ} (g : MediaGraph n) (entity : Fin n) (link : LinkPtr) : Fin n :=
  if (g.source link).entity = entity then (g.sink link).entity else (g.source link).entity

/-- The flags of the links. -/
abbrev LinkFlags := LinkPtr → UInt32

/-- `flags & MEDIA_LNK_FL_ENABLED`. -/
def Enabled (flags : LinkFlags) (link : LinkPtr) : Prop :=
  flags link &&& MEDIA_LNK_FL_ENABLED ≠ 0

instance (flags : LinkFlags) (link : LinkPtr) : Decidable (Enabled flags link) :=
  inferInstanceAs (Decidable (_ ≠ _))

/-! ## The walk -/

/-- A `struct media_graph`: the entities that have been seen, and the stack, without its lowest element.  An
element is an entity and its links that remain. -/
structure Walk (n : ℕ) where
  entEnum : Fin n → Bool
  stack : List (Fin n × List LinkPtr)

section Walks

variable {n : ℕ} (g : MediaGraph n) (flags : LinkFlags)

/-- `stack_push`: where the stack is full, nothing is pushed. -/
def stackPush (w : Walk n) (entity : Fin n) : Walk n :=
  if w.stack.length = MEDIA_ENTITY_ENUM_MAX_DEPTH - 1 then w
  else { w with stack := (entity, g.links entity) :: w.stack }

/-- `media_graph_walk_start`. -/
def mediaGraphWalkStart (entity : Fin n) : Walk n :=
  stackPush g ⟨fun x => decide (x = entity), []⟩ entity

/-- `media_graph_walk_iter`. -/
def mediaGraphWalkIter (w : Walk n) : Walk n :=
  match w.stack with
  | (entity, link :: rest) :: below =>
    let w' := { w with stack := (entity, rest) :: below }
    if ¬ Enabled flags link then w'
    else if w.entEnum (mediaEntityOther g entity link) then w'
    else stackPush g { w' with entEnum := Function.update w.entEnum (mediaEntityOther g entity link) true }
      (mediaEntityOther g entity link)
  | _ => w

/-- The entities that `media_graph_walk_next` returns one after the other, for so many turns of its loop. -/
def mediaGraphWalk : ℕ → Walk n → List (Fin n)
  | 0, _ => []
  | turns + 1, w =>
    match w.stack with
    | [] => []
    | (entity, []) :: below => entity :: mediaGraphWalk turns { w with stack := below }
    | _ => mediaGraphWalk turns (mediaGraphWalkIter g flags w)

/-- What is left to do: the links and the entities of the stack, and those that have not been seen. -/
def Walk.todo (w : Walk n) : ℕ :=
  (w.stack.map fun e => e.2.length + 1).sum +
    ∑ x, if w.entEnum x then 0 else (g.links x).length + 1

/-- The entities that a walk visits, in their order. -/
def visits (entity : Fin n) : List (Fin n) :=
  mediaGraphWalk g flags ((mediaGraphWalkStart g entity).todo g) (mediaGraphWalkStart g entity)

/-- An enabled link leads from `x` to `y`. -/
def Linked (x y : Fin n) : Prop :=
  ∃ link ∈ g.links x, Enabled flags link ∧ mediaEntityOther g x link = y

/-- A path of enabled links, from its last entity to its first, that visits no entity twice. -/
def EnabledPath (p : List (Fin n)) : Prop :=
  p.Nodup ∧ p.IsChain fun x y => Linked g flags y x

end Walks

/-! ## Turns -/

section Turns

variable {n : ℕ} {g : MediaGraph n} {flags : LinkFlags} {w : Walk n}

/-- The entities of the stack. -/
def Walk.path (w : Walk n) : List (Fin n) :=
  w.stack.map Prod.fst

variable (flags) in
/-- A turn skips a link, finds the stack full, or pushes an entity. -/
theorem mediaGraphWalkIter_cases {x : Fin n} {link : LinkPtr} {rest : List LinkPtr}
    {below : List (Fin n × List LinkPtr)} (hw : w.stack = (x, link :: rest) :: below) :
    ((¬ Enabled flags link ∨ w.entEnum (mediaEntityOther g x link) = true) ∧
      mediaGraphWalkIter g flags w = ⟨w.entEnum, (x, rest) :: below⟩) ∨
    (Enabled flags link ∧ w.entEnum (mediaEntityOther g x link) = false ∧ below.length + 1 = 15 ∧
      mediaGraphWalkIter g flags w =
        ⟨Function.update w.entEnum (mediaEntityOther g x link) true, (x, rest) :: below⟩) ∨
    (Enabled flags link ∧ w.entEnum (mediaEntityOther g x link) = false ∧
      mediaGraphWalkIter g flags w =
        ⟨Function.update w.entEnum (mediaEntityOther g x link) true,
          (mediaEntityOther g x link, g.links (mediaEntityOther g x link)) :: (x, rest) :: below⟩) := by
  unfold mediaGraphWalkIter
  rw [hw]
  dsimp only
  by_cases hen : Enabled flags link
  · rw [if_neg (not_not.mpr hen)]
    cases hseen : w.entEnum (mediaEntityOther g x link) with
    | true => exact Or.inl ⟨Or.inr rfl, if_pos rfl⟩
    | false =>
      rw [if_neg Bool.false_ne_true]
      unfold stackPush
      dsimp only
      split
      · next hfull => exact Or.inr (Or.inl ⟨hen, rfl, hfull, rfl⟩)
      · exact Or.inr (Or.inr ⟨hen, rfl, rfl⟩)
  · exact Or.inl ⟨Or.inl hen, if_pos hen⟩

/-- An entity is seen for the first time. -/
theorem sum_unseen_update (seen : Fin n → Bool) {y : Fin n} (hy : seen y = false) (f : Fin n → ℕ) :
    (∑ x, if Function.update seen y true x then 0 else f x) + f y = ∑ x, if seen x then 0 else f x := by
  have hrest : ∑ x ∈ Finset.univ.erase y, (if Function.update seen y true x then 0 else f x) =
      ∑ x ∈ Finset.univ.erase y, if seen x then 0 else f x := by
    refine Finset.sum_congr rfl fun x hx => ?_
    rw [Function.update_of_ne (Finset.ne_of_mem_erase hx)]
  rw [← Finset.add_sum_erase _ _ (Finset.mem_univ y), hrest, Function.update_self,
    ← Finset.add_sum_erase Finset.univ (fun x => if seen x then 0 else f x) (Finset.mem_univ y), hy]
  simp only [if_true, Bool.false_eq_true, if_false]
  omega

variable (flags) in
/-- A turn leaves less to do. -/
theorem todo_mediaGraphWalkIter {x : Fin n} {link : LinkPtr} {rest : List LinkPtr}
    {below : List (Fin n × List LinkPtr)} (hw : w.stack = (x, link :: rest) :: below) :
    (mediaGraphWalkIter g flags w).todo g < w.todo g := by
  have hold : w.todo g = (link :: rest).length + 1 + (below.map fun e => e.2.length + 1).sum +
      ∑ x, if w.entEnum x then 0 else (g.links x).length + 1 := by
    unfold Walk.todo
    rw [hw, List.map_cons, List.sum_cons]
  rw [List.length_cons] at hold
  rcases mediaGraphWalkIter_cases (g := g) flags hw with
    ⟨-, heq⟩ | ⟨-, hseen, -, heq⟩ | ⟨-, hseen, heq⟩
  · rw [heq]
    unfold Walk.todo at hold ⊢
    rw [List.map_cons, List.sum_cons]
    dsimp only
    omega
  · have hsum := sum_unseen_update w.entEnum hseen fun x => (g.links x).length + 1
    rw [heq]
    unfold Walk.todo at hold ⊢
    rw [List.map_cons, List.sum_cons]
    dsimp only at hsum ⊢
    omega
  · have hsum := sum_unseen_update w.entEnum hseen fun x => (g.links x).length + 1
    rw [heq]
    unfold Walk.todo at hold ⊢
    rw [List.map_cons, List.sum_cons, List.map_cons, List.sum_cons]
    dsimp only at hsum ⊢
    omega

theorem todo_pop {x : Fin n} {below : List (Fin n × List LinkPtr)} (hw : w.stack = (x, []) :: below) :
    (⟨w.entEnum, below⟩ : Walk n).todo g < w.todo g := by
  unfold Walk.todo
  rw [hw, List.map_cons, List.sum_cons]
  dsimp only
  omega

/-! ## What is visited -/

/-- The walk is over. -/
theorem mediaGraphWalk_nil (k : ℕ) (hw : w.stack = []) : mediaGraphWalk g flags k w = [] := by
  cases k with
  | zero => rfl
  | succ k => rw [mediaGraphWalk, hw]

theorem mediaGraphWalk_pop (k : ℕ) {x : Fin n} {below : List (Fin n × List LinkPtr)}
    (hw : w.stack = (x, []) :: below) :
    mediaGraphWalk g flags (k + 1) w = x :: mediaGraphWalk g flags k ⟨w.entEnum, below⟩ := by
  rw [mediaGraphWalk, hw]

theorem mediaGraphWalk_iter (k : ℕ) {x : Fin n} {link : LinkPtr} {rest : List LinkPtr}
    {below : List (Fin n × List LinkPtr)} (hw : w.stack = (x, link :: rest) :: below) :
    mediaGraphWalk g flags (k + 1) w = mediaGraphWalk g flags k (mediaGraphWalkIter g flags w) := by
  rw [mediaGraphWalk, hw]

/-- The stack holds no entity twice, and only entities that have been seen. -/
structure Walk.Ok (w : Walk n) : Prop where
  nodup : w.path.Nodup
  seen : ∀ x ∈ w.path, w.entEnum x = true

theorem Walk.Ok.pop (h : w.Ok) {x : Fin n} {below : List (Fin n × List LinkPtr)}
    (hw : w.stack = (x, []) :: below) : (⟨w.entEnum, below⟩ : Walk n).Ok ∧ x ∉ below.map Prod.fst := by
  have hpath : w.path = x :: below.map Prod.fst := by
    unfold Walk.path
    rw [hw, List.map_cons]
  obtain ⟨hx, hnodup⟩ := List.nodup_cons.mp (hpath ▸ h.nodup)
  exact ⟨⟨hnodup, fun y hy => h.seen y (hpath ▸ List.mem_cons_of_mem x hy)⟩, hx⟩

variable (flags) in
theorem Walk.Ok.iter (h : w.Ok) {x : Fin n} {link : LinkPtr} {rest : List LinkPtr}
    {below : List (Fin n × List LinkPtr)} (hw : w.stack = (x, link :: rest) :: below) :
    (mediaGraphWalkIter g flags w).Ok := by
  have hpath : w.path = x :: below.map Prod.fst := by
    unfold Walk.path
    rw [hw, List.map_cons]
  have hnodup := h.nodup
  have hseen := h.seen
  rw [hpath] at hnodup hseen
  have hgrow : ∀ y z, w.entEnum z = true → Function.update w.entEnum y true z = true := by
    intro y z hz
    by_cases hzy : z = y
    · rw [hzy, Function.update_self]
    · rw [Function.update_of_ne hzy, hz]
  rcases mediaGraphWalkIter_cases (g := g) flags hw with
    ⟨-, heq⟩ | ⟨-, hnew, -, heq⟩ | ⟨-, hnew, heq⟩
  · rw [heq]
    exact ⟨hnodup, hseen⟩
  · rw [heq]
    exact ⟨hnodup, fun z hz => hgrow _ z (hseen z hz)⟩
  · rw [heq]
    refine ⟨List.nodup_cons.mpr ⟨fun hmem => ?_, hnodup⟩, fun z hz => ?_⟩
    · exact Bool.false_ne_true (hnew.symm.trans (hseen _ hmem))
    · rcases List.mem_cons.mp hz with hz | hz
      · rw [hz]
        exact Function.update_self ..
      · exact hgrow _ z (hseen z hz)

variable (flags) in
/-- A turn leaves the entities of the stack on it, and those that it pushes were not seen. -/
theorem path_mediaGraphWalkIter {x : Fin n} {link : LinkPtr} {rest : List LinkPtr}
    {below : List (Fin n × List LinkPtr)} (hw : w.stack = (x, link :: rest) :: below) :
    (∀ y ∈ w.path, y ∈ (mediaGraphWalkIter g flags w).path) ∧
      (∀ y ∈ (mediaGraphWalkIter g flags w).path, y ∈ w.path ∨ w.entEnum y = false) ∧
      ∀ y, (mediaGraphWalkIter g flags w).entEnum y = false → w.entEnum y = false := by
  have hpath : w.path = x :: below.map Prod.fst := by
    unfold Walk.path
    rw [hw, List.map_cons]
  have hgrow : ∀ y z, Function.update w.entEnum y true z = false → w.entEnum z = false := by
    intro y z hz
    by_cases hzy : z = y
    · rw [hzy, Function.update_self] at hz
      exact absurd hz.symm Bool.false_ne_true
    · rwa [Function.update_of_ne hzy] at hz
  rw [hpath]
  rcases mediaGraphWalkIter_cases (g := g) flags hw with
    ⟨-, heq⟩ | ⟨-, hnew, -, heq⟩ | ⟨-, hnew, heq⟩
  · rw [heq]
    exact ⟨fun y hy => hy, fun y hy => Or.inl hy, fun y hy => hy⟩
  · rw [heq]
    exact ⟨fun y hy => hy, fun y hy => Or.inl hy, fun y hy => hgrow _ y hy⟩
  · rw [heq]
    refine ⟨fun y hy => List.mem_cons_of_mem _ hy, fun y hy => ?_, fun y hy => hgrow _ y hy⟩
    rcases List.mem_cons.mp hy with hy | hy
    · rw [hy]
      exact Or.inr hnew
    · exact Or.inl hy

/-- No entity is visited twice; those that are visited are on the stack, or have not been seen. -/
theorem nodup_mediaGraphWalk (k : ℕ) (h : w.Ok) : (mediaGraphWalk g flags k w).Nodup ∧
    ∀ x ∈ mediaGraphWalk g flags k w, x ∈ w.path ∨ w.entEnum x = false := by
  induction k generalizing w with
  | zero => exact ⟨List.nodup_nil, fun x hx => absurd hx List.not_mem_nil⟩
  | succ k ih =>
    rcases hw : w.stack with _ | ⟨⟨x, _ | ⟨link, rest⟩⟩, below⟩
    · rw [mediaGraphWalk_nil _ hw]
      exact ⟨List.nodup_nil, fun x hx => absurd hx List.not_mem_nil⟩
    · obtain ⟨hok, hx⟩ := h.pop hw
      obtain ⟨hnodup, hmem⟩ := ih hok
      have hpath : w.path = x :: below.map Prod.fst := by
        unfold Walk.path
        rw [hw, List.map_cons]
      rw [mediaGraphWalk_pop _ hw]
      refine ⟨List.nodup_cons.mpr ⟨fun hin => ?_, hnodup⟩, fun y hy => ?_⟩
      · rcases hmem x hin with hin | hin
        · exact hx hin
        · exact Bool.false_ne_true (hin.symm.trans (h.seen x (hpath ▸ List.mem_cons_self ..)))
      · rw [hpath]
        rcases List.mem_cons.mp hy with hy | hy
        · exact Or.inl (hy ▸ List.mem_cons_self ..)
        · exact (hmem y hy).imp_left (List.mem_cons_of_mem x)
    · obtain ⟨hnodup, hmem⟩ := ih (h.iter (g := g) flags hw)
      obtain ⟨-, hnew, hunseen⟩ := path_mediaGraphWalkIter (g := g) flags hw
      rw [mediaGraphWalk_iter _ hw]
      refine ⟨hnodup, fun y hy => ?_⟩
      rcases hmem y hy with hy | hy
      · exact hnew y hy
      · exact Or.inr (hunseen y hy)

/-- With turns enough, the entities of the stack are visited. -/
theorem mem_mediaGraphWalk_of_path (k : ℕ) (hk : w.todo g ≤ k) {x : Fin n} (hx : x ∈ w.path) :
    x ∈ mediaGraphWalk g flags k w := by
  induction k generalizing w with
  | zero =>
    rcases hw : w.stack with _ | ⟨e, below⟩
    · unfold Walk.path at hx
      rw [hw] at hx
      exact absurd hx List.not_mem_nil
    · unfold Walk.todo at hk
      rw [hw, List.map_cons, List.sum_cons] at hk
      omega
  | succ k ih =>
    unfold Walk.path at hx
    rcases hw : w.stack with _ | ⟨⟨y, _ | ⟨link, rest⟩⟩, below⟩
    · rw [hw] at hx
      exact absurd hx List.not_mem_nil
    · rw [mediaGraphWalk_pop _ hw]
      rw [hw, List.map_cons] at hx
      rcases List.mem_cons.mp hx with hx | hx
      · exact hx ▸ List.mem_cons_self ..
      · have hlt := todo_pop (g := g) hw
        exact List.mem_cons_of_mem y (ih (by omega) hx)
    · rw [mediaGraphWalk_iter _ hw]
      have hlt := todo_mediaGraphWalkIter (g := g) flags hw
      exact ih (by omega) ((path_mediaGraphWalkIter flags hw).1 x hx)

end Turns

/-! ## What a walk depends on -/

section Congr

variable {n : ℕ} {g : MediaGraph n} {flags flags' : LinkFlags}

/-- The links that remain on the stack are links of its entities. -/
def Walk.Within (g : MediaGraph n) (w : Walk n) : Prop :=
  ∀ e ∈ w.stack, e.2 ⊆ g.links e.1

theorem Walk.Within.iter {w : Walk n} (h : w.Within g) {x : Fin n} {link : LinkPtr} {rest : List LinkPtr}
    {below : List (Fin n × List LinkPtr)} (hw : w.stack = (x, link :: rest) :: below) :
    (mediaGraphWalkIter g flags w).Within g := by
  have hin : ∀ e ∈ (x, rest) :: below, e.2 ⊆ g.links e.1 := by
    unfold Walk.Within at h
    rw [hw] at h
    intro e he
    rcases List.mem_cons.mp he with he | he
    · rw [he]
      exact fun l hl => h _ (List.mem_cons_self ..) (List.mem_cons_of_mem link hl)
    · exact h e (List.mem_cons_of_mem _ he)
  rcases mediaGraphWalkIter_cases (g := g) flags hw with ⟨-, heq⟩ | ⟨-, -, -, heq⟩ | ⟨-, -, heq⟩
  · rw [heq]
    exact hin
  · rw [heq]
    exact hin
  · rw [heq]
    intro e he
    rcases List.mem_cons.mp he with he | he
    · rw [he]
      exact fun l hl => hl
    · exact hin e he

/-- A turn depends on one link. -/
theorem mediaGraphWalkIter_congr {w : Walk n} {x : Fin n} {link : LinkPtr} {rest : List LinkPtr}
    {below : List (Fin n × List LinkPtr)} (hw : w.stack = (x, link :: rest) :: below)
    (h : Enabled flags' link ↔ Enabled flags link) : mediaGraphWalkIter g flags' w = mediaGraphWalkIter g flags w := by
  unfold mediaGraphWalkIter
  rw [hw]
  dsimp only
  exact if_congr (not_congr h) rfl rfl

theorem mediaGraphWalk_congr (k : ℕ) {w : Walk n} (hk : w.todo g ≤ k) (hin : w.Within g)
    (h : ∀ x ∈ mediaGraphWalk g flags k w, ∀ l ∈ g.links x, Enabled flags' l ↔ Enabled flags l) :
    mediaGraphWalk g flags' k w = mediaGraphWalk g flags k w := by
  induction k generalizing w with
  | zero => rfl
  | succ k ih =>
    rcases hw : w.stack with _ | ⟨⟨x, _ | ⟨link, rest⟩⟩, below⟩
    · rw [mediaGraphWalk_nil _ hw, mediaGraphWalk_nil _ hw]
    · have hlt := todo_pop (g := g) hw
      rw [mediaGraphWalk_pop _ hw] at h
      rw [mediaGraphWalk_pop _ hw, mediaGraphWalk_pop _ hw]
      refine congrArg (x :: ·) (ih (by omega) (fun e he => hin e ?_) fun y hy => h y (List.mem_cons_of_mem x hy))
      rw [hw]
      exact List.mem_cons_of_mem _ he
    · have hlt := todo_mediaGraphWalkIter (g := g) flags hw
      have hx : x ∈ mediaGraphWalk g flags (k + 1) w := by
        refine mem_mediaGraphWalk_of_path _ hk ?_
        unfold Walk.path
        rw [hw]
        exact List.mem_cons_self ..
      have hlink : link ∈ g.links x := by
        refine hin (x, link :: rest) ?_ (List.mem_cons_self ..)
        rw [hw]
        exact List.mem_cons_self ..
      have hturn := mediaGraphWalkIter_congr (g := g) hw (h x hx link hlink)
      rw [mediaGraphWalk_iter _ hw] at h
      rw [mediaGraphWalk_iter _ hw, mediaGraphWalk_iter _ hw, hturn]
      exact ih (by omega) (hin.iter hw) h

/-- The stack of a walk that starts. -/
theorem mediaGraphWalkStart_eq (g : MediaGraph n) (entity : Fin n) :
    mediaGraphWalkStart g entity = ⟨fun x => decide (x = entity), [(entity, g.links entity)]⟩ := rfl

theorem ok_mediaGraphWalkStart (g : MediaGraph n) (entity : Fin n) : (mediaGraphWalkStart g entity).Ok := by
  rw [mediaGraphWalkStart_eq]
  refine ⟨List.nodup_singleton entity, fun x hx => ?_⟩
  exact decide_eq_true (List.mem_singleton.mp hx)

/-- **No entity is visited twice.** -/
theorem nodup_visits (g : MediaGraph n) (flags : LinkFlags) (entity : Fin n) : (visits g flags entity).Nodup :=
  (nodup_mediaGraphWalk _ (ok_mediaGraphWalkStart g entity)).1

/-- **A walk depends on the links of the entities that it visits**, and on no others. -/
theorem visits_congr {entity : Fin n}
    (h : ∀ x ∈ visits g flags entity, ∀ l ∈ g.links x, Enabled flags' l ↔ Enabled flags l) :
    visits g flags' entity = visits g flags entity := by
  refine mediaGraphWalk_congr _ le_rfl (fun e he => ?_) h
  rw [mediaGraphWalkStart_eq, List.mem_singleton] at he
  rw [he]
  exact fun l hl => hl

/-- The walk visits the entity that it starts from. -/
theorem mem_visits_self (g : MediaGraph n) (flags : LinkFlags) (entity : Fin n) : entity ∈ visits g flags entity :=
  mem_mediaGraphWalk_of_path _ le_rfl (List.mem_singleton_self entity)

end Congr

/-! ## What a walk reaches -/

section Reach

variable {n : ℕ} {g : MediaGraph n} {flags : LinkFlags} {entity : Fin n}

/-- What is visited can be reached. -/
theorem reachable_of_mem_mediaGraphWalk (k : ℕ) {w : Walk n} (hin : w.Within g)
    (hreach : ∀ x ∈ w.path, Relation.ReflTransGen (Linked g flags) entity x) :
    ∀ x ∈ mediaGraphWalk g flags k w, Relation.ReflTransGen (Linked g flags) entity x := by
  induction k generalizing w with
  | zero => exact fun x hx => absurd hx List.not_mem_nil
  | succ k ih =>
    rcases hw : w.stack with _ | ⟨⟨x, _ | ⟨link, rest⟩⟩, below⟩
    · rw [mediaGraphWalk_nil _ hw]
      exact fun x hx => absurd hx List.not_mem_nil
    · have hpath : w.path = x :: below.map Prod.fst := by
        unfold Walk.path
        rw [hw, List.map_cons]
      rw [hpath] at hreach
      rw [mediaGraphWalk_pop _ hw]
      intro y hy
      rcases List.mem_cons.mp hy with hy | hy
      · exact hy ▸ hreach x (List.mem_cons_self ..)
      · refine ih (w := ⟨w.entEnum, below⟩) (fun e he => hin e ?_)
          (fun z hz => hreach z (List.mem_cons_of_mem x hz)) y hy
        rw [hw]
        exact List.mem_cons_of_mem _ he
    · have hpath : w.path = x :: below.map Prod.fst := by
        unfold Walk.path
        rw [hw, List.map_cons]
      have hlink : link ∈ g.links x := by
        refine hin (x, link :: rest) ?_ (List.mem_cons_self ..)
        rw [hw]
        exact List.mem_cons_self ..
      rw [mediaGraphWalk_iter _ hw]
      refine ih (hin.iter hw) fun y hy => ?_
      rw [hpath] at hreach
      rcases mediaGraphWalkIter_cases (g := g) flags hw with
        ⟨-, heq⟩ | ⟨-, -, -, heq⟩ | ⟨hen, -, heq⟩
      · rw [heq] at hy
        exact hreach y hy
      · rw [heq] at hy
        exact hreach y hy
      · rw [heq] at hy
        rcases List.mem_cons.mp hy with hy | hy
        · rw [hy]
          exact (hreach x (List.mem_cons_self ..)).tail ⟨link, hlink, hen, rfl⟩
        · exact hreach y hy

/-- Everything that has been seen was followed, but for the links that remain on the stack. -/
structure Walk.Followed (g : MediaGraph n) (flags : LinkFlags) (w : Walk n) : Prop where
  done : ∀ x, w.entEnum x = true → x ∉ w.path → ∀ y, Linked g flags x y → w.entEnum y = true
  remain : ∀ e ∈ w.stack, ∀ l ∈ g.links e.1, Enabled flags l → l ∉ e.2 →
    w.entEnum (mediaEntityOther g e.1 l) = true

/-- The stack is a path of enabled links. -/
theorem enabledPath_iter {w : Walk n} (hok : w.Ok) (hin : w.Within g) (hp : EnabledPath g flags w.path) {x : Fin n}
    {link : LinkPtr} {rest : List LinkPtr} {below : List (Fin n × List LinkPtr)}
    (hw : w.stack = (x, link :: rest) :: below) (hen : Enabled flags link)
    (hnew : w.entEnum (mediaEntityOther g x link) = false) :
    EnabledPath g flags (mediaEntityOther g x link :: w.path) := by
  have hpath : w.path = x :: below.map Prod.fst := by
    unfold Walk.path
    rw [hw, List.map_cons]
  have hlink : link ∈ g.links x := by
    refine hin (x, link :: rest) ?_ (List.mem_cons_self ..)
    rw [hw]
    exact List.mem_cons_self ..
  refine ⟨List.nodup_cons.mpr ⟨fun hmem => ?_, hp.1⟩, ?_⟩
  · exact Bool.false_ne_true (hnew.symm.trans (hok.seen _ hmem))
  · have hchain := hp.2
    rw [hpath] at hchain ⊢
    exact List.IsChain.cons_cons ⟨link, hlink, hen, rfl⟩ hchain

/-- The lowest entity of the stack is the one that the walk started from. -/
def Walk.StartsAt (entity : Fin n) (w : Walk n) : Prop :=
  w.path ≠ [] → w.path.getLast? = some entity

theorem Walk.StartsAt.pop {w : Walk n} (h : w.StartsAt entity) {x : Fin n} {below : List (Fin n × List LinkPtr)}
    (hw : w.stack = (x, []) :: below) : (⟨w.entEnum, below⟩ : Walk n).StartsAt entity := by
  have hpath : w.path = x :: below.map Prod.fst := by
    unfold Walk.path
    rw [hw, List.map_cons]
  intro hne
  have hlast := h (by rw [hpath]; exact List.cons_ne_nil _ _)
  rw [hpath] at hlast
  exact (List.getLast?_cons_of_ne_nil (show below.map Prod.fst ≠ [] from hne)).symm.trans hlast

theorem Walk.StartsAt.iter {w : Walk n} (h : w.StartsAt entity) {x : Fin n} {link : LinkPtr} {rest : List LinkPtr}
    {below : List (Fin n × List LinkPtr)} (hw : w.stack = (x, link :: rest) :: below) :
    (mediaGraphWalkIter g flags w).StartsAt entity := by
  have hpath : w.path = x :: below.map Prod.fst := by
    unfold Walk.path
    rw [hw, List.map_cons]
  have hlast := h (by rw [hpath]; exact List.cons_ne_nil _ _)
  rw [hpath] at hlast
  intro _
  rcases mediaGraphWalkIter_cases (g := g) flags hw with ⟨-, heq⟩ | ⟨-, -, -, heq⟩ | ⟨-, -, heq⟩
  · rw [heq]
    exact hlast
  · rw [heq]
    exact hlast
  · rw [heq]
    exact (List.getLast?_cons_of_ne_nil (List.cons_ne_nil _ _)).trans hlast

/-- A turn follows a link. -/
theorem Walk.Followed.iter {w : Walk n} (h : w.Followed g flags) (hok : w.Ok) (hin : w.Within g)
    (hp : EnabledPath g flags w.path) (hat : w.StartsAt entity)
    (hlong : ∀ p, EnabledPath g flags p → p.getLast? = some entity → p.length ≤ 15)
    {x : Fin n} {link : LinkPtr} {rest : List LinkPtr} {below : List (Fin n × List LinkPtr)}
    (hw : w.stack = (x, link :: rest) :: below) :
    (mediaGraphWalkIter g flags w).Followed g flags ∧ EnabledPath g flags (mediaGraphWalkIter g flags w).path ∧
      (∀ y, w.entEnum y = true → (mediaGraphWalkIter g flags w).entEnum y = true) ∧
      ∀ y, (mediaGraphWalkIter g flags w).entEnum y = true → y ∉ (mediaGraphWalkIter g flags w).path →
        w.entEnum y = true ∧ y ∉ w.path := by
  have hpath : w.path = x :: below.map Prod.fst := by
    unfold Walk.path
    rw [hw, List.map_cons]
  have hremain : ∀ e ∈ (x, rest) :: below, ∀ l ∈ g.links e.1, Enabled flags l → l ∉ e.2 →
      w.entEnum (mediaEntityOther g e.1 l) = true ∨ e.1 = x ∧ l = link := by
    have hold := h.remain
    rw [hw] at hold
    intro e he l hl hen hout
    rcases List.mem_cons.mp he with he | he
    · rw [he] at hl hout ⊢
      by_cases hlink : l = link
      · exact Or.inr ⟨rfl, hlink⟩
      · refine Or.inl (hold (x, link :: rest) (List.mem_cons_self ..) l hl hen fun hmem => ?_)
        exact (List.mem_cons.mp hmem).elim hlink hout
    · exact Or.inl (hold e (List.mem_cons_of_mem _ he) l hl hen hout)
  have hdone := h.done
  rcases mediaGraphWalkIter_cases (g := g) flags hw with
    ⟨hskip, heq⟩ | ⟨hen, hnew, hfull, heq⟩ | ⟨hen, hnew, heq⟩
  · rw [heq]
    rw [hpath] at hdone hp ⊢
    refine ⟨⟨hdone, fun e he l hl hen hout => ?_⟩, hp, fun _ hy => hy, fun y hy hout => ⟨hy, hout⟩⟩
    rcases hremain e he l hl hen hout with hseen | ⟨hx, hlink⟩
    · exact hseen
    · rw [hx, hlink]
      rw [hlink] at hen
      exact hskip.resolve_left (not_not.mpr hen)
  · have hne : w.path ≠ [] := by
      rw [hpath]
      exact List.cons_ne_nil _ _
    have hpush := hlong _ (enabledPath_iter hok hin hp hw hen hnew)
      ((List.getLast?_cons_of_ne_nil hne).trans (hat hne))
    rw [List.length_cons, hpath, List.length_cons, List.length_map] at hpush
    omega
  · have hpush := enabledPath_iter hok hin hp hw hen hnew
    have hgrow : ∀ z, w.entEnum z = true → Function.update w.entEnum (mediaEntityOther g x link) true z = true := by
      intro z hz
      by_cases hzy : z = mediaEntityOther g x link
      · rw [hzy, Function.update_self]
      · rw [Function.update_of_ne hzy, hz]
    have hold : ∀ z, Function.update w.entEnum (mediaEntityOther g x link) true z = true →
        z ∉ mediaEntityOther g x link :: w.path → w.entEnum z = true ∧ z ∉ w.path := by
      intro z hz hout
      rw [List.mem_cons, not_or] at hout
      rw [Function.update_of_ne hout.1] at hz
      exact ⟨hz, hout.2⟩
    have hnewpath : (⟨Function.update w.entEnum (mediaEntityOther g x link) true,
        (mediaEntityOther g x link, g.links (mediaEntityOther g x link)) :: (x, rest) :: below⟩ : Walk n).path =
        mediaEntityOther g x link :: w.path := by
      rw [hpath]
      rfl
    rw [heq, hnewpath]
    refine ⟨⟨fun z hz hout t ht => ?_, fun e he l hl hen' hout => ?_⟩, hpush, hgrow, hold⟩
    · rw [hnewpath] at hout
      obtain ⟨hseen, hnot⟩ := hold z hz hout
      exact hgrow t (hdone z hseen hnot t ht)
    · rcases List.mem_cons.mp he with he | he
      · rw [he] at hl hout
        exact absurd hl hout
      · rcases hremain e he l hl hen' hout with hseen | ⟨hx, hlink⟩
        · exact hgrow _ hseen
        · rw [hx, hlink]
          exact Function.update_self ..

/-- What has been seen at the end is closed under links. -/
theorem Walk.Followed.closed {w : Walk n} (h : w.Followed g flags) (hw : w.stack = []) (k : ℕ) :
    ∃ seen : Fin n → Prop, (∀ x, w.entEnum x = true → seen x) ∧
      (∀ x y, seen x → Linked g flags x y → seen y) ∧
      ∀ x, seen x → w.entEnum x = true ∧ x ∉ w.path ∨ x ∈ mediaGraphWalk g flags k w := by
  have hpath : w.path = [] := by
    unfold Walk.path
    rw [hw, List.map_nil]
  rw [hpath]
  refine ⟨fun x => w.entEnum x = true, fun _ hx => hx, fun x y hx hy => ?_, fun x hx => Or.inl ⟨hx, List.not_mem_nil⟩⟩
  exact h.done x hx (by rw [hpath]; exact List.not_mem_nil) y hy

/-- When no path is too long, what has been seen at the end has been visited, and is closed under links. -/
theorem closed_mediaGraphWalk (k : ℕ) {w : Walk n} (hk : w.todo g ≤ k) (hok : w.Ok) (hin : w.Within g)
    (h : w.Followed g flags) (hp : EnabledPath g flags w.path) (hat : w.StartsAt entity)
    (hlong : ∀ p, EnabledPath g flags p → p.getLast? = some entity → p.length ≤ 15) :
    ∃ seen : Fin n → Prop, (∀ x, w.entEnum x = true → seen x) ∧
      (∀ x y, seen x → Linked g flags x y → seen y) ∧
      ∀ x, seen x → w.entEnum x = true ∧ x ∉ w.path ∨ x ∈ mediaGraphWalk g flags k w := by
  induction k generalizing w with
  | zero =>
    rcases hw : w.stack with _ | ⟨e, below⟩
    · exact h.closed hw _
    · unfold Walk.todo at hk
      rw [hw, List.map_cons, List.sum_cons] at hk
      omega
  | succ k ih =>
    rcases hw : w.stack with _ | ⟨⟨x, _ | ⟨link, rest⟩⟩, below⟩
    · exact h.closed hw _
    · have hpath : w.path = x :: below.map Prod.fst := by
        unfold Walk.path
        rw [hw, List.map_cons]
      have hlt := todo_pop (g := g) hw
      have hsub : ∀ e ∈ below, e ∈ w.stack := by
        rw [hw]
        exact fun e he => List.mem_cons_of_mem _ he
      have hfol : (⟨w.entEnum, below⟩ : Walk n).Followed g flags := by
        refine ⟨fun z hz hout y hy => ?_, fun e he => h.remain e (hsub e he)⟩
        by_cases hzx : z = x
        · obtain ⟨l, hl, hen, heq⟩ := hy
          rw [hzx] at hl heq
          have hrem := h.remain (x, []) (by rw [hw]; exact List.mem_cons_self ..) l hl hen List.not_mem_nil
          rwa [heq] at hrem
        · refine h.done z hz ?_ y hy
          rw [hpath, List.mem_cons, not_or]
          exact ⟨hzx, hout⟩
      have hp' : EnabledPath g flags (⟨w.entEnum, below⟩ : Walk n).path := by
        rw [hpath] at hp
        exact ⟨(List.nodup_cons.mp hp.1).2, hp.2.tail⟩
      rw [mediaGraphWalk_pop _ hw]
      obtain ⟨seen, hseen, hclosed, hmem⟩ := ih (by omega) (hok.pop hw).1 (fun e he => hin e (hsub e he)) hfol hp'
        (hat.pop hw)
      refine ⟨seen, hseen, hclosed, fun z hz => ?_⟩
      by_cases hzx : z = x
      · exact Or.inr (hzx ▸ List.mem_cons_self ..)
      · rcases hmem z hz with ⟨hz', hout⟩ | hz'
        · refine Or.inl ⟨hz', ?_⟩
          rw [hpath, List.mem_cons, not_or]
          exact ⟨hzx, hout⟩
        · exact Or.inr (List.mem_cons_of_mem x hz')
    · have hlt := todo_mediaGraphWalkIter (g := g) flags hw
      obtain ⟨hfol, hp', hgrow, hold⟩ := h.iter hok hin hp hat hlong hw
      rw [mediaGraphWalk_iter _ hw]
      obtain ⟨seen, hseen, hclosed, hmem⟩ := ih (by omega) (hok.iter flags hw) (hin.iter hw) hfol hp'
        (hat.iter hw)
      refine ⟨seen, fun y hy => hseen y (hgrow y hy), hclosed, fun y hy => ?_⟩
      exact (hmem y hy).imp_left fun hy' => hold y hy'.1 hy'.2

/-- **A walk visits what can be reached**, when no path of enabled links from its start is too long for its stack. -/
theorem mem_visits_iff (hlong : ∀ p, EnabledPath g flags p → p.getLast? = some entity → p.length ≤ 15) (x : Fin n) :
    x ∈ visits g flags entity ↔ Relation.ReflTransGen (Linked g flags) entity x := by
  have hstart := mediaGraphWalkStart_eq g entity
  have hpath : (mediaGraphWalkStart g entity).path = [entity] := rfl
  have hin : (mediaGraphWalkStart g entity).Within g := by
    rw [hstart]
    intro e he
    rw [List.mem_singleton.mp he]
    exact fun l hl => hl
  constructor
  · refine reachable_of_mem_mediaGraphWalk _ hin (fun y hy => ?_) x
    rw [hpath, List.mem_singleton] at hy
    rw [hy]
  · have hfol : (mediaGraphWalkStart g entity).Followed g flags := by
      refine ⟨fun y hy hout => absurd ?_ hout, fun e he l hl _ hout => ?_⟩
      · rw [hpath, List.mem_singleton]
        exact of_decide_eq_true hy
      · rw [hstart, List.mem_singleton] at he
        rw [he] at hl hout
        exact absurd hl hout
    obtain ⟨seen, hseen, hclosed, hmem⟩ := closed_mediaGraphWalk _ le_rfl (ok_mediaGraphWalkStart g entity) hin hfol
      ⟨List.nodup_singleton entity, List.isChain_singleton entity⟩ (fun _ => rfl) hlong
    intro hreach
    have hx : seen x := by
      induction hreach with
      | refl => exact hseen entity (decide_eq_true rfl)
      | tail _ hlink ih => exact hclosed _ _ ih hlink
    rcases hmem x hx with ⟨hsn, hout⟩ | hvisit
    · rw [hpath, List.mem_singleton] at hout
      exact absurd (of_decide_eq_true hsn) hout
    · exact hvisit

end Reach

end Mc
end TbsMedia
