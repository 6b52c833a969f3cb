import Mathlib.Data.List.Basic
import Mathlib.Logic.Function.Conjugate
import Mathlib.Order.MinMax

/-!
# Cells that are there when they are needed

A list in which a cell is made as soon as it is changed, with empty ones before it. Changes that
commute on one cell commute on the list, whichever of its cells they are for.
-/

set_option autoImplicit false

namespace Lss.Library.Padded

variable {α : Type*} (empty : α)

/-- The cells with room for `n` of them. -/
def padded (cells : List α) (n : ℕ) : List α :=
  cells ++ List.replicate (n - cells.length) empty

/-- Changes cell `i`, making room for it first. -/
def modifyAt (cells : List α) (i : ℕ) (change : α → α) : List α :=
  (padded empty cells (i + 1)).modify i change

theorem length_padded (cells : List α) (n : ℕ) :
    (padded empty cells n).length = max cells.length n := by
  rw [padded, List.length_append, List.length_replicate]
  omega

theorem padded_padded (cells : List α) (n m : ℕ) :
    padded empty (padded empty cells n) m = padded empty cells (max n m) := by
  have hroom : n - cells.length + (m - (padded empty cells n).length) =
      max n m - cells.length := by
    rw [length_padded]
    omega
  rw [padded, padded, padded, List.append_assoc, ← padded, List.replicate_append_replicate, hroom]

theorem padded_modify (cells : List α) (i n : ℕ) (change : α → α) (h : i < cells.length) :
    padded empty (cells.modify i change) n = (padded empty cells n).modify i change := by
  rw [padded, padded, List.length_modify]
  apply List.ext_getElem?
  intro j
  rw [List.getElem?_modify]
  by_cases hj : j < cells.length
  · rw [List.getElem?_append_left (by rwa [List.length_modify]), List.getElem?_append_left hj,
      List.getElem?_modify]
  · have hij : i ≠ j := by omega
    rw [List.getElem?_append_right (by rwa [List.length_modify, ← not_lt]),
      List.getElem?_append_right (not_lt.mp hj), List.length_modify]
    simp [hij]

variable {empty}

/-- Two changes in a row, with the room for both made first. -/
theorem modifyAt_modifyAt (cells : List α) (i j : ℕ) (f g : α → α) :
    modifyAt empty (modifyAt empty cells i f) j g =
      ((padded empty cells (max (i + 1) (j + 1))).modify i f).modify j g := by
  have hi : i < (padded empty cells (i + 1)).length := by
    rw [length_padded]
    omega
  rw [modifyAt, modifyAt, padded_modify _ _ _ _ _ hi, padded_padded]

/-- Two changes of one cell are one change. -/
theorem modifyAt_modifyAt_self (cells : List α) (i : ℕ) (f g : α → α) :
    modifyAt empty (modifyAt empty cells i f) i g = modifyAt empty cells i (g ∘ f) := by
  rw [modifyAt_modifyAt, max_self, List.modify_modify_eq, modifyAt]

/-- Changes that commute on a cell commute on the list. -/
theorem modifyAt_comm (cells : List α) (i j : ℕ) {f g : α → α} (hfg : Function.Commute f g) :
    modifyAt empty (modifyAt empty cells i f) j g =
      modifyAt empty (modifyAt empty cells j g) i f := by
  rw [modifyAt_modifyAt, modifyAt_modifyAt, max_comm]
  by_cases hij : i = j
  · subst hij
    rw [List.modify_modify_eq, List.modify_modify_eq, hfg.comp_eq]
  · exact List.modify_modify_ne f g _ hij

end Lss.Library.Padded
