import Mathlib.Data.List.Basic
import Mathlib.Data.List.Induction
import Mathlib.Data.List.Perm.Basic
import Mathlib.Order.MinMax

/-!
# Folding what is there

The fold of a list by an associative operation that has no neutral element: nothing for the
empty list. Such folds may be taken piece by piece, and in any order where the operation
commutes.
-/

set_option autoImplicit false

namespace Lss.Library.Fold

variable {α β : Type*} (op : α → α → α)

/-- The fold of a list, when it has something to fold. -/
def fold1 : List α → Option α
  | [] => none
  | x :: xs => some (xs.foldl op x)

variable {op}

theorem fold1_concat (xs : List α) (y : α) :
    fold1 op (xs ++ [y]) = some ((fold1 op xs).elim y fun x => op x y) := by
  cases xs with
  | nil => rfl
  | cons x xs =>
      show some ((xs ++ [y]).foldl op x) = _
      rw [List.foldl_append]
      rfl

/-- The fold as one that starts from nothing. -/
theorem foldl_merge_some (xs : List α) :
    xs.foldl (fun acc x => acc.merge op (some x)) none = fold1 op xs := by
  induction xs using List.reverseRecOn with
  | nil => rfl
  | append_singleton xs x ih =>
      rw [List.foldl_append, ih, fold1_concat]
      cases fold1 op xs <;> rfl

section Associative

variable [Std.Associative op]

theorem fold1_append (xs ys : List α) :
    fold1 op (xs ++ ys) = (fold1 op xs).merge op (fold1 op ys) := by
  cases xs with
  | nil =>
      rw [List.nil_append]
      cases fold1 op ys <;> rfl
  | cons x xs =>
      cases ys with
      | nil => rw [List.append_nil]; rfl
      | cons y ys =>
          show some ((xs ++ y :: ys).foldl op x) = _
          rw [List.foldl_append, List.foldl_cons, List.foldl_assoc]
          rfl

/-- Folding the folds of some pieces is folding everything. -/
theorem fold1_flatMap (f : β → List α) (xs : List β) :
    fold1 op (xs.flatMap f) = fold1 op (xs.filterMap fun x => fold1 op (f x)) := by
  induction xs with
  | nil => rfl
  | cons x xs ih =>
      rw [List.flatMap_cons, fold1_append, ih]
      cases h : fold1 op (f x) with
      | none =>
          rw [List.filterMap_cons, h]
          cases fold1 op (xs.filterMap fun x => fold1 op (f x)) <;> rfl
      | some a =>
          rw [List.filterMap_cons, h]
          dsimp only
          rw [← List.singleton_append, fold1_append]
          rfl

/-- The order does not matter where the operation commutes. -/
theorem fold1_perm [Std.Commutative op] {xs ys : List α} (h : xs.Perm ys) :
    fold1 op xs = fold1 op ys := by
  rw [← foldl_merge_some, ← foldl_merge_some]
  apply h.foldl_eq'
  intro x _ y _ acc
  have assoc : ∀ a b c : Option α, (a.merge op b).merge op c = a.merge op (b.merge op c) :=
    Std.Associative.assoc
  have comm : ∀ a b : Option α, a.merge op b = b.merge op a := Std.Commutative.comm
  rw [assoc, assoc, comm (some x)]

end Associative

/-! ## The greatest of a list -/

section Max

variable [LinearOrder α]

theorem le_foldl_max {x : α} (xs : List α) (first : α) :
    x ≤ xs.foldl max first ↔ x ≤ first ∨ ∃ y ∈ xs, x ≤ y := by
  induction xs generalizing first with
  | nil => exact ⟨Or.inl, fun h => h.resolve_right fun ⟨_, hy, _⟩ => absurd hy List.not_mem_nil⟩
  | cons y ys ih =>
      rw [List.foldl_cons, ih, le_max_iff, or_assoc, List.exists_mem_cons_iff]

theorem foldl_max_le {n : α} (xs : List α) (first : α) :
    xs.foldl max first ≤ n ↔ first ≤ n ∧ ∀ y ∈ xs, y ≤ n := by
  induction xs generalizing first with
  | nil => exact ⟨fun h => ⟨h, fun _ hy => absurd hy List.not_mem_nil⟩, And.left⟩
  | cons y ys ih =>
      rw [List.foldl_cons, ih, max_le_iff, and_assoc, List.forall_mem_cons]

end Max

end Lss.Library.Fold
