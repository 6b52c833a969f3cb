import Mathlib.Data.List.Basic
import Mathlib.Data.List.Dedup
import Mathlib.Data.List.Nodup
import Mathlib.Data.List.Perm.Subperm
import Std.Data.ExtTreeMap

/-!
# Maps of counters

Maps whose entries start at a default and are only added to. One entry is changed at a time,
or a whole map is merged into another; the laws of the operation on the values carry over to
the maps.
-/

set_option autoImplicit false

namespace Lss.Library.Entries

variable {κ β : Type} [Ord κ] [Std.TransOrd κ] [Inhabited β]

/-- Changes the entry of a key, starting a missing one at its default. -/
def change (m : Std.ExtTreeMap κ β) (k : κ) (add : β → β) : Std.ExtTreeMap κ β :=
  m.alter k fun old => some (add (old.getD default))

/-- Merges the entries of the second map into the first. -/
def mergeInto (f : β → β → β) (mine theirs : Std.ExtTreeMap κ β) : Std.ExtTreeMap κ β :=
  theirs.foldl (fun m k v => m.alter k fun old => some (f (old.getD default) v)) mine

/-- What holds of every entry. -/
def Each (p : β → Prop) (m : Std.ExtTreeMap κ β) : Prop :=
  ∀ (k : κ) (v : β), m[k]? = some v → p v

variable [Std.LawfulEqOrd κ]

/-! ## Reading a map -/

theorem getElem?_change (m : Std.ExtTreeMap κ β) (k a : κ) (add : β → β) [Decidable (k = a)] :
    (change m k add)[a]? = if k = a then some (add (m[k]?.getD default)) else m[a]? := by
  unfold change
  rw [Std.ExtTreeMap.getElem?_alter]
  by_cases h : k = a
  · rw [if_pos (Std.LawfulEqCmp.compare_eq_iff_eq.mpr h), if_pos h]
  · rw [if_neg (fun he => h (Std.LawfulEqCmp.compare_eq_iff_eq.mp he)), if_neg h]

theorem getElem?_change_self (m : Std.ExtTreeMap κ β) (k : κ) (add : β → β) :
    (change m k add)[k]? = some (add (m[k]?.getD default)) := by
  classical rw [getElem?_change, if_pos rfl]

theorem getElem?_change_of_ne {k a : κ} (m : Std.ExtTreeMap κ β) (add : β → β) (h : k ≠ a) :
    (change m k add)[a]? = m[a]? := by
  classical rw [getElem?_change, if_neg h]

/-- What one entry of the second map is merged into. -/
theorem getElem?_mergeInto (f : β → β → β) (mine theirs : Std.ExtTreeMap κ β) (a : κ) :
    (mergeInto f mine theirs)[a]? =
      (theirs[a]?).elim mine[a]? fun v => some (f (mine[a]?.getD default) v) := by
  classical
  -- over the entries of the second map, whose keys are distinct
  have folded : ∀ (entries : List (κ × β)) (m : Std.ExtTreeMap κ β),
      entries.Pairwise (fun x y => x.1 ≠ y.1) →
      (entries.foldl (fun m x => change m x.1 fun old => f old x.2) m)[a]? =
        ((entries.find? fun x => x.1 = a).map Prod.snd).elim m[a]?
          fun v => some (f (m[a]?.getD default) v) := by
    intro entries
    induction entries with
    | nil => intro m _; rfl
    | cons x entries ih =>
        intro m hd
        obtain ⟨hx, hd⟩ := List.pairwise_cons.mp hd
        rw [List.foldl_cons, ih _ hd]
        by_cases hk : x.1 = a
        · have absent : entries.find? (fun x => x.1 = a) = none := by
            rw [List.find?_eq_none]
            intro y hy he
            have hye : y.1 = a := by simpa using he
            exact hx y hy (hk.trans hye.symm)
          rw [absent, List.find?_cons_of_pos (by simpa using hk)]
          subst hk
          exact getElem?_change_self _ _ _
        · rw [List.find?_cons_of_neg (by simpa using hk), getElem?_change_of_ne _ _ hk]
  have distinct : theirs.toList.Pairwise fun x y => x.1 ≠ y.1 := by
    refine (Std.ExtTreeMap.distinct_keys_toList (t := theirs)).imp ?_
    intro x y hxy he
    exact hxy (Std.LawfulEqCmp.compare_eq_iff_eq.mpr he)
  have entry : (theirs.toList.find? fun x => x.1 = a).map Prod.snd = theirs[a]? := by
    apply Option.ext
    intro v
    rw [← Std.ExtTreeMap.mem_toList_iff_getElem?_eq_some, Option.map_eq_some_iff]
    constructor
    · rintro ⟨⟨k, w⟩, hf, rfl⟩
      have hk : k = a := by simpa using List.find?_some hf
      subst hk
      exact List.mem_of_find?_eq_some hf
    · intro hm
      cases hf : theirs.toList.find? (fun x => x.1 = a) with
      | none =>
          have := List.find?_eq_none.mp hf _ hm
          simp at this
      | some x =>
          have hk : x.1 = a := by simpa using List.find?_some hf
          obtain ⟨k, w⟩ := x
          dsimp only at hk
          subst hk
          have hw := List.mem_of_find?_eq_some hf
          rw [Std.ExtTreeMap.mem_toList_iff_getElem?_eq_some] at hw hm
          rw [hw] at hm
          exact ⟨_, rfl, Option.some.inj hm⟩
  unfold mergeInto
  rw [Std.ExtTreeMap.foldl_eq_foldl_toList, ← entry]
  exact folded _ mine distinct

theorem mem_mergeInto {f : β → β → β} {mine theirs : Std.ExtTreeMap κ β} {k : κ} :
    k ∈ mergeInto f mine theirs ↔ k ∈ mine ∨ k ∈ theirs := by
  rw [Std.ExtTreeMap.mem_iff_isSome_getElem?, Std.ExtTreeMap.mem_iff_isSome_getElem?,
    Std.ExtTreeMap.mem_iff_isSome_getElem?, getElem?_mergeInto]
  cases theirs[k]? with
  | none => simp
  | some v => simp

theorem mem_change {m : Std.ExtTreeMap κ β} {k a : κ} {add : β → β} :
    a ∈ change m k add ↔ k = a ∨ a ∈ m := by
  classical
  rw [Std.ExtTreeMap.mem_iff_isSome_getElem?, Std.ExtTreeMap.mem_iff_isSome_getElem?,
    getElem?_change]
  by_cases h : k = a
  · simp [h]
  · simp [h]

/-! ## Every entry -/

omit [Inhabited β] [Std.LawfulEqOrd κ] in
theorem each_empty {p : β → Prop} : Each p (∅ : Std.ExtTreeMap κ β) := by
  intro k v h
  rw [Std.ExtTreeMap.getElem?_empty] at h
  cases h

omit [Std.LawfulEqOrd κ] in
theorem Each.getD {p : β → Prop} {m : Std.ExtTreeMap κ β} (h : Each p m) (h0 : p default) (k : κ) :
    p (m[k]?.getD default) := by
  cases hk : m[k]? with
  | none => exact h0
  | some v => exact h k v hk

theorem Each.change {p : β → Prop} {m : Std.ExtTreeMap κ β} {k : κ} {add : β → β} (h : Each p m)
    (h0 : p default) (hadd : ∀ v, p v → p (add v)) : Each p (change m k add) := by
  intro a v ha
  by_cases hk : k = a
  · subst hk
    rw [getElem?_change_self] at ha
    cases ha
    exact hadd _ (h.getD h0 k)
  · rw [getElem?_change_of_ne _ _ hk] at ha
    exact h a v ha

theorem Each.mergeInto {p : β → Prop} {f : β → β → β} {mine theirs : Std.ExtTreeMap κ β}
    (h : Each p mine) (ht : Each p theirs) (h0 : p default)
    (hf : ∀ v w, p v → p w → p (f v w)) : Each p (mergeInto f mine theirs) := by
  intro a v ha
  rw [getElem?_mergeInto] at ha
  cases hk : theirs[a]? with
  | none =>
      rw [hk] at ha
      exact h a v ha
  | some w =>
      rw [hk] at ha
      cases ha
      exact hf _ _ (h.getD h0 a) (ht a w hk)

/-! ## The laws of a merge -/

@[simp] theorem mergeInto_empty (f : β → β → β) (m : Std.ExtTreeMap κ β) :
    mergeInto f m ∅ = m := by
  apply Std.ExtTreeMap.ext_getElem?
  intro a
  rw [getElem?_mergeInto, Std.ExtTreeMap.getElem?_empty]
  rfl

/-- A map merged into nothing, where the default is neutral for its entries. -/
theorem empty_mergeInto {f : β → β → β} {m : Std.ExtTreeMap κ β}
    (h : Each (fun v => f default v = v) m) : mergeInto f ∅ m = m := by
  apply Std.ExtTreeMap.ext_getElem?
  intro a
  rw [getElem?_mergeInto, Std.ExtTreeMap.getElem?_empty]
  cases hk : m[a]? with
  | none => rfl
  | some v => exact congrArg some (h a v hk)

omit [Inhabited β] in
theorem getElem?_filter_keys (p : κ → Bool) (m : Std.ExtTreeMap κ β) (a : κ) :
    (m.filter fun k _ => p k)[a]? = if p a then m[a]? else none := by
  rw [Std.ExtTreeMap.getElem?_filter']
  cases p a <;> cases m[a]? <;> rfl

/-- The entries of some keys of a merge are what those of the two maps merge to. -/
theorem filter_mergeInto (p : κ → Bool) (f : β → β → β) (mine theirs : Std.ExtTreeMap κ β) :
    (mergeInto f mine theirs).filter (fun k _ => p k) =
      mergeInto f (mine.filter fun k _ => p k) (theirs.filter fun k _ => p k) := by
  apply Std.ExtTreeMap.ext_getElem?
  intro a
  simp only [getElem?_mergeInto, getElem?_filter_keys]
  cases p a <;> rfl

/-- The entries of some keys of a map with a changed one. -/
theorem filter_change (p : κ → Bool) (m : Std.ExtTreeMap κ β) (k : κ) (add : β → β) :
    (change m k add).filter (fun k _ => p k) =
      if p k then change (m.filter fun k _ => p k) k add else m.filter fun k _ => p k := by
  classical
  apply Std.ExtTreeMap.ext_getElem?
  intro a
  rw [getElem?_filter_keys, getElem?_change]
  cases hp : p k with
  | false =>
      rw [if_neg Bool.false_ne_true, getElem?_filter_keys]
      by_cases hk : k = a
      · simp [← hk, hp]
      · simp [hk]
  | true =>
      rw [if_pos rfl, getElem?_change, getElem?_filter_keys, getElem?_filter_keys]
      by_cases hk : k = a
      · simp [← hk, hp]
      · simp [hk]

/-- A merge is associative where the values' is and the default is neutral for the last map. -/
theorem mergeInto_assoc {f : β → β → β} (assoc : ∀ u v w, f (f u v) w = f u (f v w))
    {m₃ : Std.ExtTreeMap κ β} (h₃ : Each (fun v => f default v = v) m₃)
    (m₁ m₂ : Std.ExtTreeMap κ β) :
    mergeInto f (mergeInto f m₁ m₂) m₃ = mergeInto f m₁ (mergeInto f m₂ m₃) := by
  apply Std.ExtTreeMap.ext_getElem?
  intro a
  rw [getElem?_mergeInto, getElem?_mergeInto, getElem?_mergeInto, getElem?_mergeInto]
  cases hw : m₃[a]? with
  | none => rfl
  | some w =>
      cases hv : m₂[a]? with
      | some v => exact congrArg some (assoc _ _ _)
      | none =>
          -- a key the middle map lacks starts at its default there
          show some (f (m₁[a]?.getD default) w) = some (f (m₁[a]?.getD default) (f default w))
          rw [h₃ a w hw]

/-- A merge commutes where the values' does and the default is neutral for the entries. -/
theorem mergeInto_comm {f : β → β → β} (comm : ∀ u v, f u v = f v u)
    {m₁ m₂ : Std.ExtTreeMap κ β} (h₁ : Each (fun v => f default v = v) m₁)
    (h₂ : Each (fun v => f default v = v) m₂) : mergeInto f m₁ m₂ = mergeInto f m₂ m₁ := by
  apply Std.ExtTreeMap.ext_getElem?
  intro a
  rw [getElem?_mergeInto, getElem?_mergeInto]
  cases hu : m₁[a]? with
  | none =>
      cases hv : m₂[a]? with
      | none => rfl
      | some v => exact congrArg some (h₂ a v hv)
  | some u =>
      cases hv : m₂[a]? with
      | none => exact congrArg some (h₁ a u hu).symm
      | some v => exact congrArg some (comm u v)

/-- Changing an entry is merging in a map with what the change makes of nothing. -/
theorem change_eq_mergeInto {f : β → β → β} {m : Std.ExtTreeMap κ β} {k : κ} {add : β → β}
    (h : f (m[k]?.getD default) (add default) = add (m[k]?.getD default)) :
    change m k add = mergeInto f m (change ∅ k add) := by
  apply Std.ExtTreeMap.ext_getElem?
  intro a
  rw [getElem?_mergeInto]
  by_cases hk : k = a
  · subst hk
    rw [getElem?_change_self, getElem?_change_self, Std.ExtTreeMap.getElem?_empty]
    exact congrArg some h.symm
  · rw [getElem?_change_of_ne _ _ hk, getElem?_change_of_ne _ _ hk, Std.ExtTreeMap.getElem?_empty]
    rfl

/-! ## How many entries -/

omit [Std.LawfulEqOrd κ] in
/-- A change adds no entry where the key has one. -/
theorem size_change_of_mem {m : Std.ExtTreeMap κ β} {k : κ} {add : β → β} (h : k ∈ m) :
    (change m k add).size = m.size := by
  unfold change
  exact Std.ExtTreeMap.size_alter_eq_self_of_mem h rfl

omit [Std.LawfulEqOrd κ] in
theorem size_change_of_not_mem {m : Std.ExtTreeMap κ β} {k : κ} {add : β → β} (h : k ∉ m) :
    (change m k add).size = m.size + 1 := by
  unfold change
  exact Std.ExtTreeMap.size_alter_eq_add_one h rfl

omit [Inhabited β] in
/-- A map whose keys are all on a list has no more entries than the list has members. -/
theorem size_le_of_keys [DecidableEq κ] {m : Std.ExtTreeMap κ β} {keys : List κ}
    (h : ∀ k ∈ m, k ∈ keys) : m.size ≤ keys.dedup.length := by
  rw [← Std.ExtTreeMap.length_keys]
  apply List.Subperm.length_le
  apply List.subperm_of_subset Std.ExtTreeMap.nodup_keys
  intro k hk
  exact List.mem_dedup.mpr (h k (Std.ExtTreeMap.mem_keys.mp hk))

omit [Inhabited β] in
/-- A map with all the keys of a list has at least as many entries as the list has members. -/
theorem le_size_of_keys {m : Std.ExtTreeMap κ β} {keys : List κ} (hd : keys.Nodup)
    (h : ∀ k ∈ keys, k ∈ m) : keys.length ≤ m.size := by
  rw [← Std.ExtTreeMap.length_keys]
  apply List.Subperm.length_le
  apply List.subperm_of_subset hd
  intro k hk
  exact Std.ExtTreeMap.mem_keys.mpr (h k hk)

end Lss.Library.Entries
