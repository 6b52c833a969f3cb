import Mathlib.Data.List.Induction
import Mathlib.Data.List.Pairwise
import Mathlib.Data.List.Sort
import Mathlib.Order.Defs.LinearOrder

/-!
# Keyed tables

A table as the rows it holds. A row is put in the place of the one with its key, so what a table
holds after a run of writes is, for each key, the row written last. Listed by a rank that tells
the rows apart, each row stands once.
-/

set_option autoImplicit false

namespace Lss.Library.Table

variable {ρ κ : Type} [DecidableEq κ] (key : ρ → κ)

/-- A row put in the place of the one with its key. -/
def put (rows : List ρ) (row : ρ) : List ρ := rows.filter (fun r => key r ≠ key row) ++ [row]

/-- No two rows have the same key. -/
def Keyed (rows : List ρ) : Prop := rows.Pairwise fun r s => key r ≠ key s

/-- Rows that are kept in another form are put there in that form. -/
theorem put_map {σ : Type} (key' : σ → κ) (f : ρ → σ) (same : ∀ r, key' (f r) = key r)
    (rows : List ρ) (row : ρ) : put key' (rows.map f) (f row) = (put key rows row).map f := by
  unfold put
  rw [List.map_append, List.filter_map, List.map_singleton]
  congr 2
  apply List.filter_congr
  intro r _
  rw [Function.comp_apply, same, same]

variable {key}

theorem mem_put {rows : List ρ} {row r : ρ} :
    r ∈ put key rows row ↔ r = row ∨ r ∈ rows ∧ key r ≠ key row := by
  unfold put
  rw [List.mem_append, List.mem_filter, List.mem_singleton, decide_eq_true_eq, or_comm]

theorem Keyed.put {rows : List ρ} (h : Keyed key rows) (row : ρ) :
    Keyed key (put key rows row) := by
  unfold Keyed Table.put at *
  rw [List.pairwise_append]
  refine ⟨h.filter _, List.pairwise_singleton _ _, ?_⟩
  intro r hr s hs
  rw [List.mem_singleton.mp hs]
  exact of_decide_eq_true (List.mem_filter.mp hr).2

omit [DecidableEq κ] in
/-- Rows of one key are one row. -/
theorem Keyed.eq_of_key {rows : List ρ} (h : Keyed key rows) {r s : ρ} (hr : r ∈ rows)
    (hs : s ∈ rows) (same : key r = key s) : r = s := by
  have symm : Std.Symm fun r s : ρ => key r ≠ key s := ⟨fun _ _ h => Ne.symm h⟩
  by_contra ne
  exact List.Pairwise.forall h hr hs ne same

/-- The row of a key is the one that is found. -/
theorem Keyed.find?_of_mem {rows : List ρ} (h : Keyed key rows) {r : ρ} (hr : r ∈ rows) :
    rows.find? (fun s => decide (key s = key r)) = some r := by
  cases found : rows.find? fun s => decide (key s = key r) with
  | none => simpa using List.find?_eq_none.mp found r hr
  | some s =>
      have same : key s = key r := by simpa using List.find?_some found
      rw [h.eq_of_key (List.mem_of_find?_eq_some found) hr same]

/-- What is found where all rows of a key are deleted. -/
theorem find?_filter_ne (rows : List ρ) (deleted k : κ) :
    (rows.filter fun r => key r ≠ deleted).find? (fun r => decide (key r = k)) =
      if deleted = k then none else rows.find? fun r => decide (key r = k) := by
  rw [List.find?_filter]
  split
  · rename_i here
    rw [List.find?_eq_none]
    intro r _
    simp [here]
  · rename_i other
    congr 1
    funext r
    by_cases hr : key r = k
    · simp [hr, Ne.symm other]
    · simp [hr]

/-- What is found where a row was put. -/
theorem find?_put (rows : List ρ) (row : ρ) (k : κ) :
    (put key rows row).find? (fun r => decide (key r = k)) =
      if key row = k then some row else rows.find? fun r => decide (key r = k) := by
  unfold put
  rw [List.find?_append, find?_filter_ne]
  split
  · rename_i here
    simp [here]
  · rename_i other
    simp [other]

theorem Keyed.foldl_put {rows : List ρ} (h : Keyed key rows) (writes : List ρ) :
    Keyed key (writes.foldl (Table.put key) rows) := by
  induction writes generalizing rows with
  | nil => exact h
  | cons row writes ih => exact ih (h.put row)

/-- What a run of writes leaves: of each key the row written last. -/
theorem mem_foldl_put {writes : List ρ} {r : ρ} :
    r ∈ writes.foldl (put key) [] ↔
      ∃ before after, writes = before ++ r :: after ∧ ∀ s ∈ after, key s ≠ key r := by
  induction writes using List.reverseRecOn with
  | nil =>
      constructor
      · intro h
        cases h
      · rintro ⟨before, after, h, -⟩
        exact absurd h.symm (List.append_ne_nil_of_right_ne_nil _ (List.cons_ne_nil _ _))
  | append_singleton writes row ih =>
      rw [List.foldl_concat, mem_put, ih]
      constructor
      · rintro (rfl | ⟨⟨before, after, rfl, later⟩, hne⟩)
        · exact ⟨writes, [], rfl, fun s hs => nomatch hs⟩
        · refine ⟨before, after ++ [row], by simp, ?_⟩
          intro s hs
          rcases List.mem_append.mp hs with hs | hs
          · exact later s hs
          · rw [List.mem_singleton.mp hs]
            exact Ne.symm hne
      · rintro ⟨before, after, h, later⟩
        induction after using List.reverseRecOn with
        | nil => exact Or.inl (List.append_inj_right' h rfl |> List.head_eq_of_cons_eq).symm
        | append_singleton after last _ =>
            have split : writes ++ [row] = (before ++ r :: after) ++ [last] := by
              rw [h]
              simp
            obtain ⟨hw, hl⟩ := List.append_inj' split rfl
            obtain rfl := List.head_eq_of_cons_eq hl
            refine Or.inr ⟨⟨before, after, hw, fun s hs => later s (List.mem_append_left _ hs)⟩, ?_⟩
            exact Ne.symm (later row (List.mem_append_right _ List.mem_cons_self))

/-- Rows that a rank tells apart, listed by that rank. -/
theorem pairwise_lt_mergeSort {α : Type} [LinearOrder α] {rank : ρ → α} {rows : List ρ}
    (h : rows.Pairwise fun r s => rank r ≠ rank s) :
    (rows.mergeSort fun r s => decide (rank r ≤ rank s)).Pairwise fun r s => rank r < rank s := by
  have sorted : (rows.mergeSort fun r s => decide (rank r ≤ rank s)).Pairwise
      fun r s => decide (rank r ≤ rank s) = true := by
    apply List.pairwise_mergeSort
    · intro a b c hab hbc
      rw [decide_eq_true_eq] at *
      exact le_trans hab hbc
    · intro a b
      rw [Bool.or_eq_true, decide_eq_true_eq, decide_eq_true_eq]
      exact le_total (rank a) (rank b)
  have apart : (rows.mergeSort fun r s => decide (rank r ≤ rank s)).Pairwise
      fun r s => rank r ≠ rank s :=
    ((List.mergeSort_perm rows _).pairwise_iff fun h => Ne.symm h).mpr h
  exact (sorted.and apart).imp fun h => lt_of_le_of_ne (of_decide_eq_true h.1) h.2

end Lss.Library.Table
