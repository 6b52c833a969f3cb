import Mathlib.Order.Defs.LinearOrder
import Mathlib.Data.List.Basic
import Mathlib.Order.Lattice

/-!
# The first thing that nothing later beats

Along a list that is in order, the first entry that no later one beats. Whether one entry beats
another need not have anything to do with the order, so what is found is not a maximum: it is
the lowest place from which nothing further on is an improvement.
-/

set_option autoImplicit false

namespace Lss.Library.Unbeaten

variable {α κ : Type*} [LinearOrder κ] (beaten : α → α → Prop) [DecidableRel beaten]

/-- The first entry that is beaten by none of those behind it. -/
def firstUnbeaten : List α → Option α
  | [] => none
  | x :: xs => if ∃ y ∈ xs, beaten x y then firstUnbeaten xs else some x

theorem mem_of_firstUnbeaten {xs : List α} {x : α} (h : firstUnbeaten beaten xs = some x) :
    x ∈ xs := by
  induction xs with
  | nil => cases h
  | cons y ys ih =>
    rw [firstUnbeaten] at h
    split at h
    · exact List.mem_cons_of_mem _ (ih h)
    · cases h
      exact List.mem_cons_self

/-- Where the keys rise along the list, nothing with a higher key beats what is found. -/
theorem not_beaten_of_firstUnbeaten {key : α → κ} {xs : List α}
    (sorted : xs.Pairwise fun x y => key x < key y) {x : α}
    (h : firstUnbeaten beaten xs = some x) {y : α} (hy : y ∈ xs) (hlt : key x < key y) :
    ¬ beaten x y := by
  induction xs with
  | nil => cases h
  | cons z zs ih =>
    obtain ⟨hz, hzs⟩ := List.pairwise_cons.mp sorted
    rw [firstUnbeaten] at h
    split at h
    case isTrue hbeaten =>
      -- what is found is behind `z`, so `y`, which is higher still, cannot be `z`
      have hx : key z < key x := hz x (mem_of_firstUnbeaten beaten h)
      rcases List.mem_cons.mp hy with rfl | hy
      · exact absurd hlt (lt_asymm hx)
      · exact ih hzs h hy
    case isFalse hnone =>
      cases h
      rcases List.mem_cons.mp hy with rfl | hy
      · exact absurd hlt (lt_irrefl _)
      · exact fun hyx => hnone ⟨y, hy, hyx⟩

/-- Everything with a lower key than what is found is beaten by something higher than itself. -/
theorem beaten_of_lt_firstUnbeaten {key : α → κ} {xs : List α}
    (sorted : xs.Pairwise fun x y => key x < key y) {x : α}
    (h : firstUnbeaten beaten xs = some x) {z : α} (hz : z ∈ xs) (hlt : key z < key x) :
    ∃ y ∈ xs, key z < key y ∧ beaten z y := by
  induction xs with
  | nil => cases h
  | cons w ws ih =>
    obtain ⟨hw, hws⟩ := List.pairwise_cons.mp sorted
    rw [firstUnbeaten] at h
    split at h
    case isTrue hbeaten =>
      rcases List.mem_cons.mp hz with rfl | hz
      · obtain ⟨y, hy, hyz⟩ := hbeaten
        exact ⟨y, List.mem_cons_of_mem _ hy, hw y hy, hyz⟩
      · obtain ⟨y, hy, hlt', hyz⟩ := ih hws h hz
        exact ⟨y, List.mem_cons_of_mem _ hy, hlt', hyz⟩
    case isFalse hnone =>
      cases h
      rcases List.mem_cons.mp hz with rfl | hz
      · exact absurd hlt (lt_irrefl _)
      · exact absurd hlt (lt_asymm (hw z hz))

end Lss.Library.Unbeaten
