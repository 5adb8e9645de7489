import Mathlib.Data.List.Basic
import Mathlib.Data.List.Flatten
import Mathlib.Tactic.Common

/-!
# Packing units into cells

A sender lays a sequence of units (sections, datagrams) end to end into the payload of cells.  A
cell in which a unit starts carries a pointer, the number of bytes that belong to the unit begun
earlier; a cell in which none starts carries no pointer.  Behind a complete unit the sender may fill
the rest of the cell instead of starting the next one.  A unit starts in a cell only where at least
`hdr` of its bytes fit, and a cell that breaks the stream stands only where no unit is in progress.

`Packs hdr fill view breaks rest units cells` says that `cells` is such a packing of the unsent part
`rest` of a unit already begun and of the `units` behind it.
-/

namespace TbsMedia
namespace Lib

variable {α γ : Type*}

/-- The legal packings of `rest` and `units`: `view` is the pointer of a cell, if it has one, and
its body, and `breaks` marks the cells that break the stream. -/
inductive Packs (hdr : ℕ) (fill : α) (view : γ → Option ℕ × List α) (breaks : γ → Prop) :
    List α → List (List α) → List γ → Prop where
  /-- Everything is sent. -/
  | done : Packs hdr fill view breaks [] [] []
  /-- No unit starts, and the unit begun earlier fills the cell. -/
  | contSplit {c : γ} (body rest : List α) {units cells} :
      view c = (none, body) → (breaks c → body ++ rest = []) →
        Packs hdr fill view breaks rest units cells →
          Packs hdr fill view breaks (body ++ rest) units (c :: cells)
  /-- No unit starts, and the unit begun earlier ends in the cell. -/
  | contPad {c : γ} (rest : List α) (m : ℕ) {units cells} :
      view c = (none, rest ++ List.replicate m fill) → (breaks c → rest = []) →
        Packs hdr fill view breaks [] units cells →
          Packs hdr fill view breaks rest units (c :: cells)
  /-- The units `us` and the first part `v` of another one start in the cell. -/
  | startSplit {c : γ} (rest : List α) (us : List (List α)) (v rest' : List α) {units cells} :
      view c = (some rest.length, rest ++ us.flatten ++ v) → (breaks c → rest = []) →
        hdr ≤ v.length → Packs hdr fill view breaks rest' units cells →
          Packs hdr fill view breaks rest (us ++ (v ++ rest') :: units) (c :: cells)
  /-- The units `us` start in the cell, and the rest of it is filled. -/
  | startPad {c : γ} (rest : List α) (us : List (List α)) (m : ℕ) {units cells} :
      view c = (some rest.length, rest ++ us.flatten ++ List.replicate m fill) →
        (breaks c → rest = []) → us ≠ [] → Packs hdr fill view breaks [] units cells →
          Packs hdr fill view breaks rest (us ++ units) (c :: cells)

/-- Without cells nothing is sent. -/
theorem Packs.of_no_cells {hdr : ℕ} {fill : α} {view : γ → Option ℕ × List α} {breaks : γ → Prop}
    {rest : List α} {units : List (List α)} (h : Packs hdr fill view breaks rest units []) :
    rest = [] ∧ units = [] := by
  cases h
  exact ⟨rfl, rfl⟩

/-- Cutting a filled stretch leaves a filled stretch. -/
theorem take_append_replicate {xs : List α} {m k : ℕ} (fill : α) (h : xs.length ≤ k) :
    (xs ++ List.replicate m fill).take k = xs ++ List.replicate (min (k - xs.length) m) fill := by
  rw [List.take_append, List.take_of_length_le h, List.take_replicate]

end Lib
end TbsMedia
