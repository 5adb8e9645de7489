import TbsMedia.Mc.GraphWalk
import TbsMedia.Mc.Links
import Mathlib

/-!
# Calls of a walk

A driver walks a media graph with one call for each entity, until there is none left.

* `mediaGraphWalkNext`: `media_graph_walk_next`.
* `walkCalls`: what repeated calls return.
* `walkCalls_eq`: the entities of the walk, and `NULL` from then on.
* `walkCalls_start`: these are the entities that can be reached, each of them once.
-/

namespace TbsMedia
namespace Mc

section Calls

variable {n : ℕ} (g : MediaGraph n) (flags : LinkFlags)

/-- The loop of `media_graph_walk_next`, for at most so many turns: it goes on while the entity on top of the stack
has links left. -/
def walkLoop : ℕ → Walk n → Walk n
  | 0, w => w
  | turns + 1, w =>
    match w.stack with
    | (_, _ :: _) :: _ => walkLoop turns (mediaGraphWalkIter g flags w)
    | _ => w

/-- `media_graph_walk_next`. -/
def mediaGraphWalkNext (w : Walk n) : Walk n × Option (Fin n) :=
  if w.stack = [] then (w, none)
  else
    let w := walkLoop g flags (w.todo g) w
    match w.stack with
    | [] => (w, none)
    | (entity, _) :: below => ({ w with stack := below }, some entity)

/-- What so many calls return. -/
def walkCalls : ℕ → Walk n → List (Option (Fin n))
  | 0, _ => []
  | calls + 1, w => (mediaGraphWalkNext g flags w).2 :: walkCalls calls (mediaGraphWalkNext g flags w).1

end Calls

section Next

variable {n : ℕ} {g : MediaGraph n} {flags : LinkFlags} {w : Walk n}

/-- With turns enough, their number does not matter. -/
theorem mediaGraphWalk_turns {k k' : ℕ} (hk : w.todo g ≤ k) (hk' : w.todo g ≤ k') :
    mediaGraphWalk g flags k w = mediaGraphWalk g flags k' w := by
  induction k generalizing w k' with
  | zero =>
    rcases hw : w.stack with _ | ⟨e, below⟩
    · rw [mediaGraphWalk_nil _ hw, mediaGraphWalk_nil _ hw]
    · unfold Walk.todo at hk
      rw [hw, List.map_cons, List.sum_cons] at hk
      omega
  | succ k ih =>
    rcases hw : w.stack with _ | ⟨⟨x, _ | ⟨link, rest⟩⟩, below⟩
    · rw [mediaGraphWalk_nil _ hw, mediaGraphWalk_nil _ hw]
    · have hlt := todo_pop (g := g) hw
      obtain ⟨k', rfl⟩ : ∃ m, k' = m + 1 := ⟨k' - 1, by omega⟩
      rw [mediaGraphWalk_pop _ hw, mediaGraphWalk_pop _ hw]
      exact congrArg (x :: ·) (ih (by omega) (by omega))
    · have hlt := todo_mediaGraphWalkIter (g := g) flags hw
      obtain ⟨k', rfl⟩ : ∃ m, k' = m + 1 := ⟨k' - 1, by omega⟩
      rw [mediaGraphWalk_iter _ hw, mediaGraphWalk_iter _ hw]
      exact ih (by omega) (by omega)

variable (flags) in
/-- The loop ends at an entity without links left, and leaves the walk what it is. -/
theorem walkLoop_spec (k : ℕ) (hk : w.todo g ≤ k) (hne : w.stack ≠ []) :
    ∃ x below, (walkLoop g flags k w).stack = (x, []) :: below ∧
      (walkLoop g flags k w).todo g ≤ w.todo g ∧
      mediaGraphWalk g flags (w.todo g) w =
        mediaGraphWalk g flags ((walkLoop g flags k w).todo g) (walkLoop g flags k w) := by
  induction k generalizing w with
  | zero =>
    rcases hw : w.stack with _ | ⟨e, below⟩
    · exact absurd hw hne
    · unfold Walk.todo at hk
      rw [hw, List.map_cons, List.sum_cons] at hk
      omega
  | succ k ih =>
    rcases hw : w.stack with _ | ⟨⟨x, _ | ⟨link, rest⟩⟩, below⟩
    · exact absurd hw hne
    · have hstop : walkLoop g flags (k + 1) w = w := by rw [walkLoop, hw]
      rw [hstop]
      exact ⟨x, below, hw, le_rfl, rfl⟩
    · have hlt := todo_mediaGraphWalkIter (g := g) flags hw
      have hgo : walkLoop g flags (k + 1) w = walkLoop g flags k (mediaGraphWalkIter g flags w) := by
        rw [walkLoop, hw]
      have hne' : (mediaGraphWalkIter g flags w).stack ≠ [] := by
        rcases mediaGraphWalkIter_cases (g := g) flags hw with ⟨-, heq⟩ | ⟨-, -, -, heq⟩ | ⟨-, -, heq⟩ <;>
          rw [heq] <;> exact List.cons_ne_nil _ _
      obtain ⟨y, below', hstack, hle, hsame⟩ := ih (by omega) hne'
      rw [hgo]
      refine ⟨y, below', hstack, by omega, ?_⟩
      calc mediaGraphWalk g flags (w.todo g) w = mediaGraphWalk g flags (w.todo g - 1 + 1) w := by
            rw [Nat.sub_add_cancel (by omega)]
        _ = mediaGraphWalk g flags (w.todo g - 1) (mediaGraphWalkIter g flags w) := mediaGraphWalk_iter _ hw
        _ = _ := mediaGraphWalk_turns (by omega) le_rfl
        _ = _ := hsame

variable (flags) in
/-- A call returns the next entity of the walk and leaves the others. -/
theorem mediaGraphWalkNext_spec (w : Walk n) :
    (∃ x, (mediaGraphWalkNext g flags w).2 = some x ∧
      mediaGraphWalk g flags (w.todo g) w = x :: mediaGraphWalk g flags
        ((mediaGraphWalkNext g flags w).1.todo g) (mediaGraphWalkNext g flags w).1) ∨
    (mediaGraphWalkNext g flags w = (w, none) ∧ mediaGraphWalk g flags (w.todo g) w = []) := by
  by_cases hne : w.stack = []
  · exact Or.inr ⟨if_pos hne, mediaGraphWalk_nil _ hne⟩
  · left
    obtain ⟨x, below, hstack, -, hsame⟩ := walkLoop_spec (g := g) flags _ le_rfl hne
    have hnext : mediaGraphWalkNext g flags w = (⟨(walkLoop g flags (w.todo g) w).entEnum, below⟩, some x) := by
      rw [mediaGraphWalkNext, if_neg hne]
      dsimp only
      rw [hstack]
    have hlt := todo_pop (g := g) hstack
    rw [hnext]
    refine ⟨x, rfl, ?_⟩
    rw [hsame, ← Nat.sub_add_cancel (show 1 ≤ (walkLoop g flags (w.todo g) w).todo g by omega),
      mediaGraphWalk_pop _ hstack]
    exact congrArg (x :: ·) (mediaGraphWalk_turns (by omega) le_rfl)

/-- Repeated calls return the entities of the walk, and `NULL` from then on. -/
theorem walkCalls_eq (calls : ℕ) (w : Walk n) :
    walkCalls g flags calls w =
      ((mediaGraphWalk g flags (w.todo g) w).map some ++ List.replicate calls none).take calls := by
  induction calls generalizing w with
  | zero => rfl
  | succ calls ih =>
    rw [walkCalls, ih]
    rcases mediaGraphWalkNext_spec (g := g) flags w with ⟨x, hx, hwalk⟩ | ⟨hnext, hwalk⟩
    · rw [hx, hwalk, List.map_cons, List.cons_append, List.take_succ_cons, List.replicate_succ', ← List.append_assoc]
      refine congrArg (some x :: ·) (List.take_append_of_le_length ?_).symm
      rw [List.length_append, List.length_replicate]
      exact Nat.le_add_left _ _
    · rw [hnext]
      dsimp only
      rw [hwalk, List.map_nil, List.nil_append, List.nil_append, List.replicate_succ, List.take_succ_cons]

/-- **Repeated calls return the entities that can be reached**, each of them once, and `NULL` from then on, when no
path of enabled links from the start is too long for the stack. -/
theorem walkCalls_start {entity : Fin n}
    (hlong : ∀ p, EnabledPath g flags p → p.getLast? = some entity → p.length ≤ 15) :
    ∃ xs : List (Fin n), xs.Nodup ∧ (∀ x, x ∈ xs ↔ Relation.ReflTransGen (Linked g flags) entity x) ∧
      ∀ calls, walkCalls g flags calls (mediaGraphWalkStart g entity) =
        (xs.map some ++ List.replicate calls none).take calls :=
  ⟨visits g flags entity, nodup_visits g flags entity, mem_visits_iff hlong, fun calls => walkCalls_eq calls _⟩

/-- Two entities with a link and its backlink. -/
def pairGraph : MediaGraph 2 where
  links := ![[0], [1]]
  source := fun _ => ⟨⟨0, Nat.two_pos⟩, 0⟩
  sink := fun _ => ⟨Fin.last 1, 0⟩
  reverse := fun l => 1 - l
  padFlags := fun _ => 0
  numPads := fun _ => 1
  linkValidate := fun _ => false
  ends := by decide
  reverse_source := fun _ => rfl
  reverse_sink := fun _ => rfl

theorem walkCalls_pair :
    ∃ xs : List (Fin 2), xs.Nodup ∧
      (∀ x, x ∈ xs ↔ Relation.ReflTransGen (Linked pairGraph fun _ => MEDIA_LNK_FL_ENABLED) 1 x) ∧
      ∀ calls, walkCalls pairGraph (fun _ => MEDIA_LNK_FL_ENABLED) calls (mediaGraphWalkStart pairGraph 1) =
        (xs.map some ++ List.replicate calls none).take calls := by
  refine walkCalls_start fun p hp _ => ?_
  have hle := hp.1.length_le_card
  rw [Fintype.card_fin] at hle
  omega

end Next

end Mc
end TbsMedia
