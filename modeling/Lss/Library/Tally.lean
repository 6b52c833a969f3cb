import Mathlib.Algebra.BigOperators.Group.Finset.Basic
import Mathlib.Algebra.BigOperators.Group.List.Basic
import Mathlib.Data.Finset.Dedup
import Lss.Library.Entries
import Mathlib.Algebra.Ring.Nat

/-!
# What the entries of a map add up to

Every entry of a map weighs something, and the map weighs what its entries weigh together. A map
that differs from another at one key differs from it by the weight of that entry, and a merge
weighs what the two maps weigh where the merge of two values does.
-/

set_option autoImplicit false

namespace Lss.Library.Tally

open Lss.Library.Entries

variable {κ β : Type} [Ord κ] [Std.TransOrd κ]

/-- The weight of a map. -/
def total (w : β → ℕ) (m : Std.ExtTreeMap κ β) : ℕ := (m.toList.map fun e => w e.2).sum

/-- What the entry of a key weighs, nothing where there is none. -/
def weight (w : β → ℕ) (m : Std.ExtTreeMap κ β) (k : κ) : ℕ := (m[k]?).elim 0 w

section Keys

variable [Std.LawfulEqOrd κ]

/-- The weight of a map is the sum over any keys that include its own. -/
theorem total_eq_sum (w : β → ℕ) (m : Std.ExtTreeMap κ β) (s : Finset κ) (h : ∀ k ∈ m, k ∈ s) :
    total w m = ∑ k ∈ s, weight w m k := by
  classical
  have entries : m.toList.map (fun e => w e.2) = m.keys.map (weight w m) := by
    rw [← Std.ExtTreeMap.map_fst_toList_eq_keys, List.map_map]
    apply List.map_congr_left
    intro e he
    have hget : m[e.1]? = some e.2 := Std.ExtTreeMap.mem_toList_iff_getElem?_eq_some.mp he
    show w e.2 = (m[e.1]?).elim 0 w
    rw [hget]
    rfl
  have own : m.keys.toFinset ⊆ s := by
    intro k hk
    exact h k (Std.ExtTreeMap.mem_keys.mp (List.mem_toFinset.mp hk))
  unfold total
  rw [entries, ← List.sum_toFinset _ Std.ExtTreeMap.nodup_keys]
  apply Finset.sum_subset own
  intro k _ hk
  have absent : k ∉ m := fun hm => hk (List.mem_toFinset.mpr (Std.ExtTreeMap.mem_keys.mpr hm))
  unfold weight
  rw [Std.ExtTreeMap.getElem?_eq_none absent]
  rfl

/-- Two maps that agree but at one key differ by the weight of that entry. -/
theorem total_of_agree (w : β → ℕ) {m n : Std.ExtTreeMap κ β} {k : κ}
    (h : ∀ a, a ≠ k → n[a]? = m[a]?) :
    total w n + weight w m k = total w m + weight w n k := by
  classical
  let s : Finset κ := insert k (m.keys.toFinset ∪ n.keys.toFinset)
  have hm : ∀ a ∈ m, a ∈ s := fun a ha =>
    Finset.mem_insert_of_mem (Finset.mem_union_left _
      (List.mem_toFinset.mpr (Std.ExtTreeMap.mem_keys.mpr ha)))
  have hn : ∀ a ∈ n, a ∈ s := fun a ha =>
    Finset.mem_insert_of_mem (Finset.mem_union_right _
      (List.mem_toFinset.mpr (Std.ExtTreeMap.mem_keys.mpr ha)))
  have hk : k ∈ s := Finset.mem_insert_self _ _
  have rest : ∑ a ∈ s.erase k, weight w n a = ∑ a ∈ s.erase k, weight w m a := by
    apply Finset.sum_congr rfl
    intro a ha
    unfold weight
    rw [h a (Finset.ne_of_mem_erase ha)]
  rw [total_eq_sum w m s hm, total_eq_sum w n s hn, ← Finset.add_sum_erase s _ hk,
    ← Finset.add_sum_erase s (weight w m) hk, rest]
  omega

/-- A changed entry of a map, in place. -/
theorem total_modify (w : β → ℕ) (m : Std.ExtTreeMap κ β) (k : κ) (f : β → β) :
    total w (m.modify k f) + weight w m k = total w m + (m[k]?).elim 0 fun v => w (f v) := by
  have agree := total_of_agree w (m := m) (n := m.modify k f) (k := k) fun a ha => by
    rw [Std.ExtTreeMap.getElem?_modify,
      if_neg fun he => ha (Std.LawfulEqCmp.compare_eq_iff_eq.mp he).symm]
  have own : weight w (m.modify k f) k = (m[k]?).elim 0 fun v => w (f v) := by
    unfold weight
    rw [Std.ExtTreeMap.getElem?_modify_self]
    cases m[k]? with
    | none => rfl
    | some v => rfl
  rw [agree, own]

variable [Inhabited β]

/-- One changed entry of a map, started at its default where it was missing. -/
theorem total_change (w : β → ℕ) (m : Std.ExtTreeMap κ β) (k : κ) (add : β → β) :
    total w (change m k add) + weight w m k = total w m + w (add (m[k]?.getD default)) := by
  have agree := total_of_agree w (m := m) (n := change m k add) (k := k) fun a ha =>
    getElem?_change_of_ne m add (Ne.symm ha)
  have own : weight w (change m k add) k = w (add (m[k]?.getD default)) := by
    unfold weight
    rw [getElem?_change_self]
    rfl
  rw [agree, own]

/-- An entry made heavier by so much. -/
theorem total_change_add {w : β → ℕ} (h0 : w default = 0) (m : Std.ExtTreeMap κ β) (k : κ)
    {add : β → β} {n : ℕ} (hadd : ∀ v, w (add v) = w v + n) :
    total w (change m k add) = total w m + n := by
  have changed := total_change w m k add
  have own : w (m[k]?.getD default) = weight w m k := by
    unfold weight
    cases m[k]? with
    | none => exact h0
    | some v => rfl
  rw [hadd, own] at changed
  omega

/-- Maps merged weigh what they weigh apart, where their entries do. -/
theorem total_mergeInto {w : β → ℕ} (h0 : w default = 0) {f : β → β → β}
    (hf : ∀ u v, w (f u v) = w u + w v) (mine theirs : Std.ExtTreeMap κ β) :
    total w (mergeInto f mine theirs) = total w mine + total w theirs := by
  classical
  let s : Finset κ := mine.keys.toFinset ∪ theirs.keys.toFinset ∪
    (mergeInto f mine theirs).keys.toFinset
  have covers : ∀ (m : Std.ExtTreeMap κ β), m.keys.toFinset ⊆ s → ∀ a ∈ m, a ∈ s :=
    fun m hm a ha => hm (List.mem_toFinset.mpr (Std.ExtTreeMap.mem_keys.mpr ha))
  rw [total_eq_sum w mine s (covers _ fun a ha =>
      Finset.mem_union_left _ (Finset.mem_union_left _ ha)),
    total_eq_sum w theirs s (covers _ fun a ha =>
      Finset.mem_union_left _ (Finset.mem_union_right _ ha)),
    total_eq_sum w _ s (covers _ fun a ha => Finset.mem_union_right _ ha),
    ← Finset.sum_add_distrib]
  apply Finset.sum_congr rfl
  intro k _
  unfold weight
  rw [getElem?_mergeInto]
  cases theirs[k]? with
  | none => exact (Nat.add_zero _).symm
  | some v =>
      show w (f (mine[k]?.getD default) v) = (mine[k]?).elim 0 w + w v
      rw [hf]
      cases mine[k]? with
      | none => exact congrArg (· + w v) h0
      | some u => rfl

end Keys

@[simp] theorem total_empty (w : β → ℕ) : total w (∅ : Std.ExtTreeMap κ β) = 0 := by
  have none : (∅ : Std.ExtTreeMap κ β).toList = [] := rfl
  unfold total
  rw [none]
  rfl

end Lss.Library.Tally
