import Mathlib
import TbsMedia.Lib.Runs
import TbsMedia.Mc.GraphWalk
import TbsMedia.Mc.Request

/-!
# Media pipelines

A start of a pipeline counts the entities that a walk visits as streaming, and gives them the pipeline; when an
entity cannot be started, the walk is made again and what was done is undone.  A stop walks once more.

An active start holds a count on each entity that its walk visits, so no link of these is switched while it is
active, and its walk is still the same when it is stopped (`visits_congr`).  A start that fails walks once more
and gives back the counts up to the entity that failed (`undoLoop_spec`).

* `mediaPipelineStart`, `mediaPipelineStop`, `mediaEntitySetupLink`: the operations.
* `pipeStep`: one of them, on a graph without dynamic links.
* `PipelinesKept`: the counts and pipelines of the entities are those of the starts that are active.
* `pipelinesKept_run`: it holds of every run.
* `not_component`: a walk does not reach the end of a path of 17 entities.
-/

namespace TbsMedia
namespace Mc

open Lib

def EINVAL : ℤ := 22
def ENOLINK : ℤ := 67
def ENOIOCTLCMD : ℤ := 515

def MEDIA_PAD_FL_MUST_CONNECT : UInt32 := 0x4

abbrev PipePtr := ℕ

/-- The flags of the links, the streaming entities and the pipelines of a media device, and the starts that are
active.  The counts are `int` in the source: `stream_count` is left alone where it is not above zero, and the
`streaming_count` of a pipeline that an entity streams for is above zero, so that both are natural numbers here. -/
structure PipeSys (n : ℕ) where
  flags : LinkFlags
  streamCount : Fin n → ℕ
  pipe : Fin n → Option PipePtr
  streamingCount : PipePtr → ℕ
  active : List (Fin n × PipePtr)

section Operations

variable {n : ℕ} (g : MediaGraph n)

/-! ## Starting a pipeline -/

/-- The loop over the links of an entity, with the pads that are active and those that have no links.  The
operation `link_validate` returns `validate`. -/
def validateLinks (flags : LinkFlags) (validate : LinkPtr → ℤ) (entity : Fin n) :
    List LinkPtr → (active hasNoLinks : ℕ → Bool) → Except ℤ ((ℕ → Bool) × (ℕ → Bool))
  | [], active, hasNoLinks => .ok (active, hasNoLinks)
  | link :: rest, active, hasNoLinks =>
    let pad := if (g.sink link).entity = entity then g.sink link else g.source link
    let hasNoLinks := Function.update hasNoLinks pad.index false
    let active :=
      if g.padFlags pad &&& MEDIA_PAD_FL_MUST_CONNECT = 0 ∨ Enabled flags link then
        Function.update active pad.index true
      else active
    if g.sink link ≠ pad ∨ ¬ Enabled flags link then validateLinks flags validate entity rest active hasNoLinks
    else if validate link < 0 ∧ validate link ≠ -ENOIOCTLCMD then .error (validate link)
    else validateLinks flags validate entity rest active hasNoLinks

/-- The links of an entity are validated, and its pads are connected that must be. -/
def checkLinks (flags : LinkFlags) (validate : LinkPtr → ℤ) (entity : Fin n) : ℤ :=
  match validateLinks g flags validate entity (g.links entity) (fun _ => false) (fun _ => true) with
  | .error ret => ret
  | .ok (active, hasNoLinks) =>
    if (List.range (g.numPads entity)).all fun i => active i || hasNoLinks i then 0 else -ENOLINK

/-- An entity is started. -/
def startEntity (validate : LinkPtr → ℤ) (p : PipePtr) (s : PipeSys n) (entity : Fin n) : PipeSys n × ℤ :=
  let s := { s with streamCount := Function.update s.streamCount entity (s.streamCount entity + 1) }
  if s.pipe entity ≠ none ∧ s.pipe entity ≠ some p then (s, -EBUSY)
  else
    let s := { s with pipe := Function.update s.pipe entity (some p) }
    if 1 < s.streamCount entity ∨ g.linkValidate entity = false then (s, 0)
    else (s, checkLinks g s.flags validate entity)

/-- The entities are started in turn, up to one where that fails. -/
def startLoop (validate : LinkPtr → ℤ) (p : PipePtr) : List (Fin n) → PipeSys n → PipeSys n × Option (Fin n × ℤ)
  | [], s => (s, none)
  | entity :: rest, s =>
    let r := startEntity g validate p s entity
    if r.2 = 0 then startLoop validate p rest r.1 else (r.1, some (entity, r.2))

/-- An entity streams for one start less; `stream_count <= 0` is warned of, and left alone. -/
def stopEntity (s : PipeSys n) (entity : Fin n) : PipeSys n :=
  if s.streamCount entity = 0 then s
  else
    let s := { s with streamCount := Function.update s.streamCount entity (s.streamCount entity - 1) }
    if s.streamCount entity = 0 then { s with pipe := Function.update s.pipe entity none } else s

/-- What was done is undone, up to the entity that could not be started. -/
def undoLoop (failed : Fin n) : List (Fin n) → PipeSys n → PipeSys n
  | [], s => s
  | entity :: rest, s =>
    if entity = failed then stopEntity s entity else undoLoop failed rest (stopEntity s entity)

/-- `--pipe->streaming_count`. -/
def dropStreaming (s : PipeSys n) (p : PipePtr) : PipeSys n :=
  { s with streamingCount := Function.update s.streamingCount p (s.streamingCount p - 1) }

/-- `__media_pipeline_start`.  The resources for the walk are there when `init` is 0. -/
def mediaPipelineStart (s : PipeSys n) (entity : Fin n) (p : PipePtr) (init : ℤ) (validate : LinkPtr → ℤ) :
    PipeSys n × ℤ :=
  let s₁ := { s with streamingCount := Function.update s.streamingCount p (s.streamingCount p + 1) }
  if s.streamingCount p = 0 ∧ init ≠ 0 then (dropStreaming s₁ p, init)
  else
    match startLoop g validate p (visits g s.flags entity) s₁ with
    | (s₂, none) => ({ s₂ with active := (entity, p) :: s₂.active }, 0)
    | (s₂, some (failed, ret)) => (dropStreaming (undoLoop failed (visits g s.flags entity) s₂) p, ret)

/-- `__media_pipeline_stop`. -/
def mediaPipelineStop (s : PipeSys n) (entity : Fin n) : PipeSys n :=
  match s.pipe entity with
  | none => s
  | some p => dropStreaming ((visits g s.flags entity).foldl stopEntity s) p

/-! ## Links -/

/-- `__media_entity_setup_link_notify`.  The operations `link_setup` of the source and the sink return
`sourceSetup` and `sinkSetup`. -/
def mediaEntitySetupLinkNotify (s : PipeSys n) (link : LinkPtr) (flags : UInt32) (sourceSetup sinkSetup : ℤ) :
    PipeSys n × ℤ :=
  if sourceSetup < 0 ∧ sourceSetup ≠ -ENOIOCTLCMD then (s, sourceSetup)
  else if sinkSetup < 0 ∧ sinkSetup ≠ -ENOIOCTLCMD then (s, sinkSetup)
  else
    ({ s with flags := Function.update (Function.update s.flags link flags) (g.reverse link) flags }, 0)

/-- `__media_entity_setup_link`.  The operation `link_notify` of the device returns `notify`. -/
def mediaEntitySetupLink (s : PipeSys n) (link : LinkPtr) (flags : UInt32) (notify sourceSetup sinkSetup : ℤ) :
    PipeSys n × ℤ :=
  if s.flags link &&& ~~~MEDIA_LNK_FL_ENABLED ≠ flags &&& ~~~MEDIA_LNK_FL_ENABLED then (s, -EINVAL)
  else if s.flags link &&& MEDIA_LNK_FL_IMMUTABLE ≠ 0 then (s, if s.flags link = flags then 0 else -EINVAL)
  else if s.flags link = flags then (s, 0)
  else if s.flags link &&& MEDIA_LNK_FL_DYNAMIC = 0 ∧
      (s.streamCount (g.source link).entity ≠ 0 ∨ s.streamCount (g.sink link).entity ≠ 0) then (s, -EBUSY)
  else if notify < 0 then (s, notify)
  else mediaEntitySetupLinkNotify g s link flags sourceSetup sinkSetup

/-! ## Steps -/

/-- What happens next. -/
inductive PipeAct (n : ℕ) where
  | start (entity : Fin n) (p : PipePtr) (init : ℤ) (validate : LinkPtr → ℤ)
  /-- The start `a` is stopped, at an entity from which the same entities are visited. -/
  | stop (entity : Fin n) (a : Fin n × PipePtr)
  | setupLink (link : LinkPtr) (flags : UInt32) (notify sourceSetup sinkSetup : ℤ)

/-- A step, or `none` where there is nothing to stop. -/
def pipeStep (s : PipeSys n) : PipeAct n → Option (PipeSys n)
  | .start entity p init validate => some (mediaPipelineStart g s entity p init validate).1
  | .stop entity a =>
    if a ∈ s.active ∧ ∀ x, x ∈ visits g s.flags entity ↔ x ∈ visits g s.flags a.1 then
      some { mediaPipelineStop g s entity with active := s.active.erase a }
    else none
  | .setupLink link flags notify sourceSetup sinkSetup =>
    some (mediaEntitySetupLink g s link flags notify sourceSetup sinkSetup).1

end Operations

/-- Nothing is streaming. -/
def PipeSys.initial (n : ℕ) (flags : LinkFlags) : PipeSys n where
  flags := flags
  streamCount := fun _ => 0
  pipe := fun _ => none
  streamingCount := fun _ => 0
  active := []

/-- **The pipelines are kept**: an entity streams for the active starts whose walk visits it, and has their
pipeline; a pipeline streams for its active starts; a start that fails changes nothing; and walks visit what
enabled links lead to, unless there is a path of more than 15 entities. -/
structure PipelinesKept {n : ℕ} (g : MediaGraph n) (s : PipeSys n) : Prop where
  count : ∀ x, s.streamCount x = s.active.countP fun a => x ∈ visits g s.flags a.1
  pipe : ∀ a ∈ s.active, ∀ x ∈ visits g s.flags a.1, s.pipe x = some a.2
  null : ∀ x, s.pipe x = none ↔ s.streamCount x = 0
  streaming : ∀ p, s.streamingCount p = s.active.countP fun a => a.2 = p
  failed : ∀ entity p init validate, (mediaPipelineStart g s entity p init validate).2 ≠ 0 →
    (mediaPipelineStart g s entity p init validate).1 = s
  component : (∀ p, EnabledPath g s.flags p → p.length ≤ 15) → ∀ entity x,
    x ∈ visits g s.flags entity ↔ Relation.ReflTransGen (Linked g s.flags) entity x

/-! ## Entities that have been started -/

section Started

variable {n : ℕ} {g : MediaGraph n} {s s' s'' : PipeSys n}

/-- The entities of the list stream for one start more; a pipeline that an entity had, it has. -/
structure Bumped (s s' : PipeSys n) (l : List (Fin n)) : Prop where
  flags : s'.flags = s.flags
  streamingCount : s'.streamingCount = s.streamingCount
  active : s'.active = s.active
  count : ∀ x, s'.streamCount x = s.streamCount x + if x ∈ l then 1 else 0
  same : ∀ x, x ∉ l → s'.pipe x = s.pipe x
  kept : ∀ x, s.pipe x ≠ none → s'.pipe x = s.pipe x

theorem Bumped.refl (s : PipeSys n) : Bumped s s [] :=
  ⟨rfl, rfl, rfl, fun _ => rfl, fun _ _ => rfl, fun _ _ => rfl⟩

theorem Bumped.eq (h : Bumped s s' []) : s' = s := by
  obtain ⟨flags, count, pipe, streaming, active⟩ := s
  obtain ⟨flags', count', pipe', streaming', active'⟩ := s'
  obtain ⟨rfl, rfl, rfl, hcount, hsame, -⟩ := h
  obtain rfl : count' = count := funext hcount
  obtain rfl : pipe' = pipe := funext fun x => hsame x List.not_mem_nil
  rfl

theorem Bumped.cons {x : Fin n} {l : List (Fin n)} (h : Bumped s s' [x]) (h' : Bumped s' s'' l) (hx : x ∉ l) :
    Bumped s s'' (x :: l) where
  flags := h'.flags.trans h.flags
  streamingCount := h'.streamingCount.trans h.streamingCount
  active := h'.active.trans h.active
  count := by
    intro y
    rw [h'.count, h.count]
    by_cases hy : y = x
    · rw [hy, if_pos (List.mem_singleton_self x), if_neg hx, if_pos (List.mem_cons_self ..)]
    · rw [if_neg fun hm => hy (List.mem_singleton.mp hm), Nat.add_zero]
      exact congrArg _ (if_congr (List.mem_cons.trans (or_iff_right hy)).symm rfl rfl)
  same := by
    intro y hy
    rw [List.mem_cons, not_or] at hy
    rw [h'.same y hy.2, h.same y fun hm => hy.1 (List.mem_singleton.mp hm)]
  kept := by
    intro y hy
    rw [h'.kept y (by rwa [h.kept y hy]), h.kept y hy]

theorem busy_ne_zero : -EBUSY ≠ 0 := by decide

/-- An entity is started, or not. -/
theorem startEntity_spec (g : MediaGraph n) (validate : LinkPtr → ℤ) (p : PipePtr) (s : PipeSys n) (x : Fin n) :
    Bumped s (startEntity g validate p s x).1 [x] ∧
      ((startEntity g validate p s x).2 = 0 → (startEntity g validate p s x).1.pipe x = some p) := by
  have hcount : ∀ y, Function.update s.streamCount x (s.streamCount x + 1) y =
      s.streamCount y + if y ∈ [x] then 1 else 0 := by
    intro y
    by_cases hy : y = x
    · rw [hy, Function.update_self, if_pos (List.mem_singleton_self x)]
    · rw [Function.update_of_ne hy, if_neg fun hm => hy (List.mem_singleton.mp hm), Nat.add_zero]
  by_cases hbusy : s.pipe x ≠ none ∧ s.pipe x ≠ some p
  · have heq : startEntity g validate p s x =
        ({ s with streamCount := Function.update s.streamCount x (s.streamCount x + 1) }, -EBUSY) := if_pos hbusy
    rw [heq]
    exact ⟨⟨rfl, rfl, rfl, hcount, fun _ _ => rfl, fun _ _ => rfl⟩, fun h => absurd h busy_ne_zero⟩
  · have hbump : Bumped s { s with
        streamCount := Function.update s.streamCount x (s.streamCount x + 1)
        pipe := Function.update s.pipe x (some p) } [x] := by
      refine ⟨rfl, rfl, rfl, hcount, fun y hy => ?_, fun y hy => ?_⟩
      · have hne : y ≠ x := fun h => hy (List.mem_singleton.mpr h)
        exact Function.update_of_ne hne _ _
      · change Function.update s.pipe x (some p) y = s.pipe y
        by_cases hyx : y = x
        · rw [hyx] at hy ⊢
          rw [Function.update_self]
          exact (not_not.mp fun hne => hbusy ⟨hy, hne⟩).symm
        · rw [Function.update_of_ne hyx]
    have hpipe : Function.update s.pipe x (some p) x = some p := Function.update_self ..
    unfold startEntity
    dsimp only
    rw [if_neg hbusy]
    split
    · exact ⟨hbump, fun _ => hpipe⟩
    · exact ⟨hbump, fun _ => hpipe⟩

/-- **The entities are started** that a walk visits, or those up to one where it fails. -/
theorem startLoop_spec (validate : LinkPtr → ℤ) (p : PipePtr) {l : List (Fin n)} (hl : l.Nodup) (s : PipeSys n) :
    (∃ s', startLoop g validate p l s = (s', none) ∧ Bumped s s' l ∧ ∀ x ∈ l, s'.pipe x = some p) ∨
      ∃ s' pre failed post ret, startLoop g validate p l s = (s', some (failed, ret)) ∧ ret ≠ 0 ∧
        l = pre ++ failed :: post ∧ Bumped s s' (pre ++ [failed]) := by
  induction l generalizing s with
  | nil => exact Or.inl ⟨s, rfl, Bumped.refl s, fun x hx => absurd hx List.not_mem_nil⟩
  | cons x l ih =>
    obtain ⟨hx, hl⟩ := List.nodup_cons.mp hl
    obtain ⟨hbump, hpipe⟩ := startEntity_spec g validate p s x
    by_cases hret : (startEntity g validate p s x).2 = 0
    · have hloop : startLoop g validate p (x :: l) s = startLoop g validate p l (startEntity g validate p s x).1 :=
        if_pos hret
      rw [hloop]
      rcases ih hl (startEntity g validate p s x).1 with
        ⟨s', heq, hb, hp⟩ | ⟨s', pre, failed, post, ret, heq, hne, hsplit, hb⟩
      · refine Or.inl ⟨s', heq, hbump.cons hb hx, fun y hy => ?_⟩
        rcases List.mem_cons.mp hy with hy | hy
        · rw [hy, hb.same x hx]
          exact hpipe hret
        · exact hp y hy
      · refine Or.inr ⟨s', x :: pre, failed, post, ret, heq, hne, by rw [hsplit, List.cons_append],
          hbump.cons hb fun hmem => hx ?_⟩
        rw [hsplit]
        rcases List.mem_append.mp hmem with hmem | hmem
        · exact List.mem_append_left _ hmem
        · rw [List.mem_singleton.mp hmem]
          exact List.mem_append_right _ (List.mem_cons_self ..)
    · have hloop : startLoop g validate p (x :: l) s =
          ((startEntity g validate p s x).1, some (x, (startEntity g validate p s x).2)) := if_neg hret
      exact Or.inr ⟨_, [], x, l, _, hloop, hret, rfl, hbump⟩

/-- What was done to an entity is undone. -/
theorem Bumped.undo {x : Fin n} {l : List (Fin n)} (h : Bumped s s' (x :: l)) (hx : x ∉ l)
    (hnull : s.pipe x = none ↔ s.streamCount x = 0) : Bumped s (stopEntity s' x) l := by
  have hcount : s'.streamCount x = s.streamCount x + 1 := by
    rw [h.count, if_pos (List.mem_cons_self ..)]
  have hdrop : ∀ y, Function.update s'.streamCount x (s'.streamCount x - 1) y =
      s.streamCount y + if y ∈ l then 1 else 0 := by
    intro y
    by_cases hy : y = x
    · rw [hy, Function.update_self, hcount, if_neg hx]
      rfl
    · rw [Function.update_of_ne hy, h.count]
      exact congrArg _ (if_congr (List.mem_cons.trans (or_iff_right hy)) rfl rfl)
  have hother : ∀ y, y ∉ l → y ≠ x → s'.pipe y = s.pipe y := by
    intro y hy hne
    exact h.same y fun hmem => (List.mem_cons.mp hmem).elim hne hy
  unfold stopEntity
  dsimp only
  rw [if_neg (by rw [hcount]; exact Nat.succ_ne_zero _)]
  have hself : Function.update s'.streamCount x (s'.streamCount x - 1) x = s.streamCount x := by
    rw [Function.update_self, hcount]
    rfl
  split
  · next hzero =>
    have hnone := hnull.mpr (hself.symm.trans hzero)
    refine ⟨h.flags, h.streamingCount, h.active, hdrop, fun y hy => ?_, fun y hy => ?_⟩
    · dsimp only
      by_cases hne : y = x
      · rw [hne, Function.update_self, hnone]
      · rw [Function.update_of_ne hne, hother y hy hne]
    · have hne : y ≠ x := fun heq => hy (heq ▸ hnone)
      dsimp only
      rw [Function.update_of_ne hne, h.kept y hy]
  · next hzero =>
    refine ⟨h.flags, h.streamingCount, h.active, hdrop, fun y hy => ?_, h.kept⟩
    by_cases hne : y = x
    · rw [hne]
      exact h.kept x fun hnone => hzero (hself.trans (hnull.mp hnone))
    · exact hother y hy hne

/-- **A failed start is undone.** -/
theorem undoLoop_spec {pre post : List (Fin n)} {failed : Fin n} (hnodup : (pre ++ failed :: post).Nodup)
    (h : Bumped s s' (pre ++ [failed])) (hnull : ∀ x, s.pipe x = none ↔ s.streamCount x = 0) :
    undoLoop failed (pre ++ failed :: post) s' = s := by
  induction pre generalizing s' with
  | nil =>
    have hundo := Bumped.undo (l := []) h List.not_mem_nil (hnull failed)
    rw [List.nil_append, undoLoop, if_pos rfl, hundo.eq]
  | cons x pre ih =>
    rw [List.cons_append] at hnodup
    obtain ⟨hx, hrest⟩ := List.nodup_cons.mp hnodup
    have hne : x ≠ failed := fun heq => hx (List.mem_append_right _ (heq ▸ List.mem_cons_self ..))
    have hout : x ∉ pre ++ [failed] := by
      intro hmem
      rcases List.mem_append.mp hmem with hmem | hmem
      · exact hx (List.mem_append_left _ hmem)
      · exact hne (List.mem_singleton.mp hmem)
    rw [List.cons_append, undoLoop, if_neg hne]
    exact ih hrest (Bumped.undo h hout (hnull x))

end Started

/-! ## Entities that are stopped -/

section Stopped

variable {n : ℕ} {g : MediaGraph n} {s : PipeSys n}

/-- The entities of the list stream for one start less. -/
structure Stopped (s s' : PipeSys n) (l : List (Fin n)) : Prop where
  flags : s'.flags = s.flags
  streamingCount : s'.streamingCount = s.streamingCount
  active : s'.active = s.active
  count : ∀ x, s'.streamCount x + (if x ∈ l then 1 else 0) = s.streamCount x
  pipe : ∀ x, s'.pipe x = if x ∈ l ∧ s.streamCount x = 1 then none else s.pipe x

theorem stopEntity_spec (x : Fin n) (hx : s.streamCount x ≠ 0) : Stopped s (stopEntity s x) [x] := by
  have hcount : ∀ y, Function.update s.streamCount x (s.streamCount x - 1) y + (if y ∈ [x] then 1 else 0) =
      s.streamCount y := by
    intro y
    by_cases hy : y = x
    · rw [hy, Function.update_self, if_pos (List.mem_singleton_self x)]
      omega
    · rw [Function.update_of_ne hy, if_neg fun hm => hy (List.mem_singleton.mp hm), Nat.add_zero]
  have hself : Function.update s.streamCount x (s.streamCount x - 1) x = s.streamCount x - 1 :=
    Function.update_self ..
  unfold stopEntity
  dsimp only
  rw [if_neg hx]
  split
  · next hzero =>
    rw [hself] at hzero
    refine ⟨rfl, rfl, rfl, hcount, fun y => ?_⟩
    dsimp only
    by_cases hy : y = x
    · rw [hy, Function.update_self, if_pos ⟨List.mem_singleton_self x, by omega⟩]
    · rw [Function.update_of_ne hy, if_neg fun h => hy (List.mem_singleton.mp h.1)]
  · next hzero =>
    rw [hself] at hzero
    refine ⟨rfl, rfl, rfl, hcount, fun y => ?_⟩
    rw [if_neg]
    rintro ⟨hmem, hone⟩
    rw [List.mem_singleton.mp hmem] at hone
    omega

/-- **The entities that a walk visits are stopped.** -/
theorem foldl_stopEntity {l : List (Fin n)} (hl : l.Nodup) (hpos : ∀ x ∈ l, s.streamCount x ≠ 0) :
    Stopped s (l.foldl stopEntity s) l := by
  induction l generalizing s with
  | nil => exact ⟨rfl, rfl, rfl, fun _ => rfl, fun x => by simp⟩
  | cons x l ih =>
    obtain ⟨hx, hl⟩ := List.nodup_cons.mp hl
    have hone := stopEntity_spec x (hpos x (List.mem_cons_self ..))
    have hother : ∀ y, y ≠ x → (stopEntity s x).streamCount y = s.streamCount y := by
      intro y hy
      have hcount := hone.count y
      rwa [if_neg fun hm => hy (List.mem_singleton.mp hm), Nat.add_zero] at hcount
    have hrest := ih (s := stopEntity s x) hl fun y hy => by
      rw [hother y fun heq => hx (heq ▸ hy)]
      exact hpos y (List.mem_cons_of_mem x hy)
    refine ⟨hrest.flags.trans hone.flags, hrest.streamingCount.trans hone.streamingCount,
      hrest.active.trans hone.active, fun y => ?_, fun y => ?_⟩
    · have hcount := hrest.count y
      have hfirst := hone.count y
      rw [List.foldl_cons]
      by_cases hy : y = x
      · rw [hy] at hcount hfirst ⊢
        rw [if_neg hx] at hcount
        rw [if_pos (List.mem_singleton_self x)] at hfirst
        rw [if_pos (List.mem_cons_self ..)]
        omega
      · rw [if_neg fun hm => hy (List.mem_singleton.mp hm)] at hfirst
        rw [if_congr (List.mem_cons.trans (or_iff_right hy)) rfl rfl]
        omega
    · rw [List.foldl_cons, hrest.pipe y]
      by_cases hy : y = x
      · rw [hy, if_neg fun h => hx h.1, hone.pipe x]
        exact if_congr (and_congr_left' (iff_of_true (List.mem_singleton_self x) (List.mem_cons_self ..))) rfl rfl
      · rw [hother y hy, hone.pipe y, if_neg fun h : y ∈ [x] ∧ _ => hy (List.mem_singleton.mp h.1)]
        exact if_congr (and_congr_left' (List.mem_cons.trans (or_iff_right hy)).symm) rfl rfl

end Stopped

/-! ## Runs -/

section Runs

variable {n : ℕ} {g : MediaGraph n} {s : PipeSys n}

/-- What holds between the steps. -/
structure Streams (g : MediaGraph n) (s : PipeSys n) : Prop where
  static : ∀ l, s.flags l &&& MEDIA_LNK_FL_DYNAMIC = 0
  count : ∀ x, s.streamCount x = s.active.countP fun a => x ∈ visits g s.flags a.1
  pipe : ∀ a ∈ s.active, ∀ x ∈ visits g s.flags a.1, s.pipe x = some a.2
  null : ∀ x, s.pipe x = none ↔ s.streamCount x = 0
  streaming : ∀ p, s.streamingCount p = s.active.countP fun a => a.2 = p

theorem streams_initial (g : MediaGraph n) {flags : LinkFlags}
    (hstatic : ∀ l, flags l &&& MEDIA_LNK_FL_DYNAMIC = 0) : Streams g (PipeSys.initial n flags) where
  static := hstatic
  count := fun _ => rfl
  pipe := fun _ ha => absurd ha List.not_mem_nil
  null := fun _ => iff_of_true rfl rfl
  streaming := fun _ => rfl

/-- A count goes up, and down again. -/
theorem dropStreaming_add (s : PipeSys n) (p : PipePtr) :
    dropStreaming { s with streamingCount := Function.update s.streamingCount p (s.streamingCount p + 1) } p = s := by
  unfold dropStreaming
  simp

/-- **A start succeeds or fails.** -/
theorem mediaPipelineStart_cases (h : Streams g s) (entity : Fin n) (p : PipePtr) (init : ℤ)
    (validate : LinkPtr → ℤ) :
    ((mediaPipelineStart g s entity p init validate).2 ≠ 0 ∧
      (mediaPipelineStart g s entity p init validate).1 = s) ∨
    ((mediaPipelineStart g s entity p init validate).2 = 0 ∧ ∃ s₂,
      Bumped { s with streamingCount := Function.update s.streamingCount p (s.streamingCount p + 1) } s₂
        (visits g s.flags entity) ∧ (∀ x ∈ visits g s.flags entity, s₂.pipe x = some p) ∧
      (mediaPipelineStart g s entity p init validate).1 = { s₂ with active := (entity, p) :: s.active }) := by
  unfold mediaPipelineStart
  dsimp only
  split
  · next hinit => exact Or.inl ⟨hinit.2, dropStreaming_add s p⟩
  · rcases startLoop_spec (g := g) validate p (nodup_visits g s.flags entity)
      { s with streamingCount := Function.update s.streamingCount p (s.streamingCount p + 1) } with
      ⟨s₂, heq, hb, hp⟩ | ⟨s₂, pre, failed, post, ret, heq, hne, hsplit, hb⟩
    · have hactive : s₂.active = s.active := hb.active
      rw [heq]
      refine Or.inr ⟨rfl, s₂, hb, hp, ?_⟩
      dsimp only
      rw [hactive]
    · rw [heq]
      refine Or.inl ⟨hne, ?_⟩
      have hnodup := nodup_visits g s.flags entity
      rw [hsplit] at hnodup
      dsimp only
      rw [hsplit, undoLoop_spec hnodup hb h.null, dropStreaming_add]

/-- An entity that a start visits is streaming. -/
theorem Streams.streaming_of_active (h : Streams g s) {a : Fin n × PipePtr} (ha : a ∈ s.active) {x : Fin n}
    (hx : x ∈ visits g s.flags a.1) : s.streamCount x ≠ 0 := by
  rw [h.count]
  intro hzero
  exact List.countP_eq_zero.mp hzero a ha (decide_eq_true hx)

/-- A start keeps the counts. -/
theorem streams_start (h : Streams g s) (entity : Fin n) (p : PipePtr) (init : ℤ) (validate : LinkPtr → ℤ) :
    Streams g (mediaPipelineStart g s entity p init validate).1 := by
  rcases mediaPipelineStart_cases h entity p init validate with ⟨-, heq⟩ | ⟨-, s₂, hb, hp, heq⟩
  · rw [heq]
    exact h
  · have hflags : s₂.flags = s.flags := hb.flags
    rw [heq]
    refine ⟨?_, fun x => ?_, fun a ha x hx => ?_, fun x => ?_, fun q => ?_⟩
    · rw [hflags]
      exact h.static
    · have hcount := hb.count x
      dsimp only at hcount ⊢
      rw [hcount, hflags, List.countP_cons, h.count]
      exact congrArg _ (if_congr (decide_eq_true_iff).symm rfl rfl)
    · dsimp only at ha hx ⊢
      rw [hflags] at hx
      rcases List.mem_cons.mp ha with ha | ha
      · rw [ha] at hx ⊢
        exact hp x hx
      · have hold := h.pipe a ha x hx
        rw [← hold]
        exact hb.kept x (by rw [hold]; exact Option.some_ne_none _)
    · have hcount := hb.count x
      dsimp only at hcount ⊢
      by_cases hx : x ∈ visits g s.flags entity
      · rw [hp x hx, hcount, if_pos hx]
        exact iff_of_false (Option.some_ne_none p) (Nat.succ_ne_zero _)
      · rw [hb.same x hx, hcount, if_neg hx]
        exact h.null x
    · have hcount := congrFun hb.streamingCount q
      dsimp only at hcount ⊢
      rw [hcount, List.countP_cons]
      by_cases hq : q = p
      · rw [hq, Function.update_self, h.streaming, if_pos (decide_eq_true rfl)]
      · rw [Function.update_of_ne hq, h.streaming, if_neg fun hpq => hq (of_decide_eq_true hpq).symm]
        rfl

/-- A stop keeps the counts. -/
theorem streams_stop (h : Streams g s) {entity : Fin n} {a : Fin n × PipePtr} (ha : a ∈ s.active)
    (hsame : ∀ x, x ∈ visits g s.flags entity ↔ x ∈ visits g s.flags a.1) :
    Streams g { mediaPipelineStop g s entity with active := s.active.erase a } := by
  have hpipe : s.pipe entity = some a.2 :=
    h.pipe a ha entity ((hsame entity).mp (mem_visits_self g s.flags entity))
  have hst := foldl_stopEntity (s := s) (nodup_visits g s.flags entity)
    fun x hx => h.streaming_of_active ha ((hsame x).mp hx)
  have hstop : mediaPipelineStop g s entity = dropStreaming ((visits g s.flags entity).foldl stopEntity s) a.2 := by
    unfold mediaPipelineStop
    rw [hpipe]
  rw [hstop]
  generalize (visits g s.flags entity).foldl stopEntity s = s₂ at *
  have hflags : s₂.flags = s.flags := hst.flags
  have hcountP : ∀ x, s₂.streamCount x = (s.active.erase a).countP fun b => x ∈ visits g s.flags b.1 := by
    intro x
    have hcount := hst.count x
    have herase := (List.perm_cons_erase ha).countP_eq fun b => decide (x ∈ visits g s.flags b.1)
    rw [List.countP_cons, ← h.count] at herase
    have hif : (if x ∈ visits g s.flags entity then 1 else 0) =
        if decide (x ∈ visits g s.flags a.1) = true then 1 else 0 :=
      if_congr ((hsame x).trans decide_eq_true_iff.symm) rfl rfl
    rw [hif] at hcount
    omega
  refine ⟨?_, fun x => ?_, fun b hb x hx => ?_, fun x => ?_, fun q => ?_⟩
  · change ∀ l, s₂.flags l &&& MEDIA_LNK_FL_DYNAMIC = 0
    rw [hflags]
    exact h.static
  · change s₂.streamCount x = (s.active.erase a).countP fun b => x ∈ visits g s₂.flags b.1
    rw [hflags]
    exact hcountP x
  · change s₂.pipe x = some b.2
    change x ∈ visits g s₂.flags b.1 at hx
    rw [hflags] at hx
    rw [hst.pipe x, if_neg, h.pipe b (List.mem_of_mem_erase hb) x hx]
    rintro ⟨hmem, hone⟩
    have hcount := hst.count x
    rw [if_pos hmem, hcountP x] at hcount
    have hpos : 0 < (s.active.erase a).countP fun b => x ∈ visits g s.flags b.1 :=
      List.countP_pos_iff.mpr ⟨b, hb, decide_eq_true hx⟩
    omega
  · change s₂.pipe x = none ↔ s₂.streamCount x = 0
    have hcount := hst.count x
    have hnull := h.null x
    rw [hst.pipe x]
    by_cases hx : x ∈ visits g s.flags entity
    · rw [if_pos hx] at hcount
      have hne : s.pipe x ≠ none := fun hnone => by
        have := hnull.mp hnone
        omega
      by_cases hone : s.streamCount x = 1
      · rw [if_pos ⟨hx, hone⟩]
        exact iff_of_true rfl (by omega)
      · rw [if_neg fun h => hone h.2]
        exact iff_of_false hne (by omega)
    · rw [if_neg hx] at hcount
      rw [if_neg fun h => hx h.1, hnull]
      omega
  · change Function.update s₂.streamingCount a.2 (s₂.streamingCount a.2 - 1) q =
      (s.active.erase a).countP fun b => b.2 = q
    have herase := (List.perm_cons_erase ha).countP_eq fun b => decide (b.2 = q)
    rw [List.countP_cons, ← h.streaming] at herase
    rw [hst.streamingCount]
    by_cases hq : q = a.2
    · rw [hq] at herase ⊢
      rw [if_pos (decide_eq_true rfl)] at herase
      rw [Function.update_self]
      omega
    · rw [if_neg fun haq => hq (of_decide_eq_true haq).symm] at herase
      rw [Function.update_of_ne hq]
      omega

/-- A change of a link is refused, or it is a change of a link whose ends do not stream. -/
theorem mediaEntitySetupLink_cases (h : Streams g s) (link : LinkPtr) (flags : UInt32)
    (notify sourceSetup sinkSetup : ℤ) :
    (mediaEntitySetupLink g s link flags notify sourceSetup sinkSetup).1 = s ∨
      (s.streamCount (g.source link).entity = 0 ∧ s.streamCount (g.sink link).entity = 0 ∧
        s.flags link &&& ~~~MEDIA_LNK_FL_ENABLED = flags &&& ~~~MEDIA_LNK_FL_ENABLED ∧
        (mediaEntitySetupLink g s link flags notify sourceSetup sinkSetup).1 =
          { s with flags := Function.update (Function.update s.flags link flags) (g.reverse link) flags }) := by
  unfold mediaEntitySetupLink
  split
  · exact Or.inl rfl
  next hmask =>
  split
  · exact Or.inl rfl
  split
  · exact Or.inl rfl
  split
  · exact Or.inl rfl
  next hidle =>
  split
  · exact Or.inl rfl
  unfold mediaEntitySetupLinkNotify
  split
  · exact Or.inl rfl
  split
  · exact Or.inl rfl
  · rw [not_and, not_or, not_not, not_not] at hidle
    obtain ⟨hsource, hsink⟩ := hidle (h.static link)
    exact Or.inr ⟨hsource, hsink, not_not.mp hmask, rfl⟩

/-- A flag other than the enabled flag is left. -/
theorem dynamic_of_mask {f f' : UInt32} (h : f &&& ~~~MEDIA_LNK_FL_ENABLED = f' &&& ~~~MEDIA_LNK_FL_ENABLED)
    (hf : f &&& MEDIA_LNK_FL_DYNAMIC = 0) : f' &&& MEDIA_LNK_FL_DYNAMIC = 0 := by
  have hmask : MEDIA_LNK_FL_DYNAMIC = ~~~MEDIA_LNK_FL_ENABLED &&& MEDIA_LNK_FL_DYNAMIC := by decide
  rw [hmask, ← UInt32.and_assoc] at hf ⊢
  rw [← h]
  exact hf

/-- A change of a link keeps the counts: no walk of an active start looks at it. -/
theorem streams_setupLink (h : Streams g s) (link : LinkPtr) (flags : UInt32) (notify sourceSetup sinkSetup : ℤ) :
    Streams g (mediaEntitySetupLink g s link flags notify sourceSetup sinkSetup).1 := by
  rcases mediaEntitySetupLink_cases h link flags notify sourceSetup sinkSetup with
    heq | ⟨hsource, hsink, hmask, heq⟩
  · rw [heq]
    exact h
  · rw [heq]
    have hvisits : ∀ a ∈ s.active, visits g
        (Function.update (Function.update s.flags link flags) (g.reverse link) flags) a.1 =
          visits g s.flags a.1 := by
      intro a ha
      refine visits_congr fun x hx l hl => ?_
      have hpos := h.streaming_of_active ha hx
      have hend : l ≠ link ∧ l ≠ g.reverse link := by
        have hends := g.ends x l hl
        constructor
        · rintro rfl
          rcases hends with he | he
          · exact hpos (he ▸ hsource)
          · exact hpos (he ▸ hsink)
        · rintro rfl
          rw [g.reverse_source, g.reverse_sink] at hends
          rcases hends with he | he
          · exact hpos (he ▸ hsource)
          · exact hpos (he ▸ hsink)
      unfold Enabled
      rw [Function.update_of_ne hend.2, Function.update_of_ne hend.1]
    refine ⟨fun l => ?_, fun x => ?_, fun a ha x hx => ?_, h.null, h.streaming⟩
    · dsimp only
      by_cases hrev : l = g.reverse link
      · rw [hrev, Function.update_self]
        exact dynamic_of_mask hmask (h.static link)
      · rw [Function.update_of_ne hrev]
        by_cases hl : l = link
        · rw [hl, Function.update_self]
          exact dynamic_of_mask hmask (h.static link)
        · rw [Function.update_of_ne hl]
          exact h.static l
    · dsimp only
      rw [h.count]
      refine List.countP_congr fun a ha => ?_
      rw [hvisits a ha]
    · dsimp only at ha hx
      rw [hvisits a ha] at hx
      exact h.pipe a ha x hx

/-- **A step keeps the counts.** -/
theorem streams_pipeStep {t : PipeSys n} {e : PipeAct n} (h : Streams g s) (ht : pipeStep g s e = some t) :
    Streams g t := by
  cases e with
  | start entity p init validate =>
    obtain rfl := Option.some.inj ht
    exact streams_start h entity p init validate
  | stop entity a =>
    simp only [pipeStep] at ht
    split at ht
    · next ha =>
      obtain rfl := Option.some.inj ht
      exact streams_stop h ha.1 ha.2
    · exact absurd ht.symm (Option.some_ne_none t)
  | setupLink link flags notify sourceSetup sinkSetup =>
    obtain rfl := Option.some.inj ht
    exact streams_setupLink h link flags notify sourceSetup sinkSetup

end Runs

/-- **In every run** on a graph without dynamic links, the pipelines are kept. -/
theorem pipelinesKept_run {n : ℕ} (g : MediaGraph n) (flags : LinkFlags)
    (hstatic : ∀ l, flags l &&& MEDIA_LNK_FL_DYNAMIC = 0) (es : List (PipeAct n)) (s : PipeSys n)
    (h : run (pipeStep g) (PipeSys.initial n flags) es = some s) : PipelinesKept g s := by
  have hs : Streams g s := run_inv (fun _ _ _ hs ht => streams_pipeStep hs ht) (streams_initial g hstatic) h
  refine ⟨hs.count, hs.pipe, hs.null, hs.streaming, fun entity p init validate hne => ?_,
    fun hlong entity x => mem_visits_iff (fun q hq _ => hlong q hq) x⟩
  rcases mediaPipelineStart_cases hs entity p init validate with ⟨-, heq⟩ | ⟨hzero, -⟩
  · exact heq
  · exact absurd hzero hne

/-! ## A long path -/

/-- The link `2 * i` of the row and its backlink. -/
def rowReverse (link : ℕ) : ℕ :=
  if link % 2 = 0 then link + 1 else link - 1

theorem rowReverse_half (link : ℕ) : rowReverse link / 2 = link / 2 := by
  unfold rowReverse
  split <;> omega

/-- Seventeen entities in a row, each with a link from its pad 1 to the pad 0 of the next one. -/
def rowGraph : MediaGraph 17 where
  links := fun x => (if x.val = 0 then [] else [2 * (x.val - 1) + 1]) ++ if x.val = 16 then [] else [2 * x.val]
  source := fun l => ⟨Fin.ofNat 17 (l / 2), 1⟩
  sink := fun l => ⟨Fin.ofNat 17 (l / 2 + 1), 0⟩
  reverse := rowReverse
  padFlags := fun _ => 0
  numPads := fun _ => 2
  linkValidate := fun _ => true
  ends := by decide
  reverse_source := fun l => congrArg (fun k => MediaPad.mk (Fin.ofNat 17 k) 1) (rowReverse_half l)
  reverse_sink := fun l => congrArg (fun k => MediaPad.mk (Fin.ofNat 17 (k + 1)) 0) (rowReverse_half l)

/-- All links of the row are enabled. -/
def rowFlags : LinkFlags := fun _ => MEDIA_LNK_FL_ENABLED

theorem rowFlags_static (link : LinkPtr) : rowFlags link &&& MEDIA_LNK_FL_DYNAMIC = 0 :=
  show MEDIA_LNK_FL_ENABLED &&& MEDIA_LNK_FL_DYNAMIC = 0 by decide

/-- A start, a start of another pipeline that fails, a stop at the other end of what was started, and a link that
is disabled. -/
theorem pipelinesKept_row : ∃ s, run (pipeStep rowGraph) (PipeSys.initial 17 rowFlags)
    [.setupLink 4 0 0 0 0, .start 0 1 0 (fun _ => 0), .start 1 2 0 (fun _ => 0), .start 5 2 0 (fun _ => 0),
      .stop 2 (0, 1), .setupLink 0 0 0 0 0] = some s ∧
    s.active = [(5, 2)] ∧ s.streamCount 2 = 0 ∧ s.streamCount 3 = 1 ∧ PipelinesKept rowGraph s := by
  have hrun : (run (pipeStep rowGraph) (PipeSys.initial 17 rowFlags)
      [.setupLink 4 0 0 0 0, .start 0 1 0 (fun _ => 0), .start 1 2 0 (fun _ => 0), .start 5 2 0 (fun _ => 0),
        .stop 2 (0, 1), .setupLink 0 0 0 0 0]).map (fun s => (s.active, s.streamCount 2, s.streamCount 3)) =
      some ([(5, 2)], 0, 1) := by decide +kernel
  obtain ⟨s, hs, heq⟩ := Option.map_eq_some_iff.mp hrun
  obtain ⟨hactive, htwo, hthree⟩ : s.active = [(5, 2)] ∧ s.streamCount 2 = 0 ∧ s.streamCount 3 = 1 := by
    simpa only [Prod.mk.injEq] using heq
  exact ⟨s, hs, hactive, htwo, hthree, pipelinesKept_run rowGraph rowFlags rowFlags_static _ s hs⟩

/-- **The walk does not reach the end of the row**: a start succeeds at one end, and the entity at the other end
of the enabled links does not stream. -/
theorem not_component : ∃ s, run (pipeStep rowGraph) (PipeSys.initial 17 rowFlags)
    [.start 0 1 0 (fun _ => 0)] = some s ∧ s.active = [(0, 1)] ∧ s.streamCount 16 = 0 ∧
    Relation.ReflTransGen (Linked rowGraph s.flags) 0 16 := by
  have hrun : (run (pipeStep rowGraph) (PipeSys.initial 17 rowFlags) [.start 0 1 0 (fun _ => 0)]).map
      (fun s => (s.active, s.streamCount 16, decide (∀ x : Fin 16, Enabled s.flags (2 * x.val)))) =
      some ([(0, 1)], 0, true) := by decide +kernel
  obtain ⟨s, hs, heq⟩ := Option.map_eq_some_iff.mp hrun
  obtain ⟨hactive, hcount, henabled⟩ : s.active = [(0, 1)] ∧ s.streamCount 16 = 0 ∧
      ∀ x : Fin 16, Enabled s.flags (2 * x.val) := by
    simpa only [Prod.mk.injEq, decide_eq_true_eq] using heq
  have hnext : ∀ x : Fin 16, Linked rowGraph s.flags x.castSucc x.succ := by
    intro x
    have hlink : ∀ x : Fin 16, 2 * x.val ∈ rowGraph.links x.castSucc ∧
        mediaEntityOther rowGraph x.castSucc (2 * x.val) = x.succ := by decide
    exact ⟨2 * x.val, (hlink x).1, henabled x, (hlink x).2⟩
  have hpath : ∀ k : Fin 17, Relation.ReflTransGen (Linked rowGraph s.flags) 0 k := by
    intro k
    induction k using Fin.induction with
    | zero => exact Relation.ReflTransGen.refl
    | succ k ih => exact ih.tail (hnext k)
  exact ⟨s, hs, hactive, hcount, hpath 16⟩

end Mc
end TbsMedia
