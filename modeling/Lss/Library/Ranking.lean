import Mathlib.Data.List.Sort

/-!
# Ranked lists

A list put in order by a total relation. Its first entry with a property stands before every
entry with that property, and an entry is among the first `k` exactly when fewer than `k` others
stand strictly before it.
-/

set_option autoImplicit false

namespace Lss.Library.Ranking

variable {α : Type*} (r : α → α → Prop)

/-- The first entry of an ordered list with a property stands before all that have it. -/
theorem rel_of_find {l : List α} (ordered : l.Pairwise r) {p : α → Bool} {a : α}
    (found : l.find? p = some a) : ∀ b ∈ l, p b = true → b = a ∨ r a b := by
  induction ordered with
  | nil => simp at found
  | @cons c l first rest ih =>
      intro b hb hp
      rw [List.find?_cons] at found
      by_cases hc : p c = true
      · simp only [hc, Option.some.injEq] at found
        subst found
        rcases List.mem_cons.mp hb with rfl | hb
        · exact Or.inl rfl
        · exact Or.inr (first b hb)
      · simp only [hc] at found
        rcases List.mem_cons.mp hb with rfl | hb
        · exact absurd hp hc
        · exact ih found b hb hp

/-- Some entry has a property as soon as one of the list does. -/
theorem find_insertionSort_isSome [DecidableRel r] {l : List α} {p : α → Bool} {b : α} (hb : b ∈ l)
    (hp : p b = true) : ((l.insertionSort r).find? p).isSome := by
  rw [List.find?_isSome]
  exact ⟨b, (List.mem_insertionSort r).mpr hb, hp⟩

/-- The first entries after an insertion depend on as many of those before it. -/
theorem take_orderedInsert [DecidableRel r] (a : α) (l : List α) (n : ℕ) :
    (l.orderedInsert r a).take n = ((l.take n).orderedInsert r a).take n := by
  induction l generalizing n with
  | nil => simp
  | cons b l ih =>
      cases n with
      | zero => simp
      | succ n =>
          by_cases before : r a b
          · simp only [List.take_succ_cons, List.orderedInsert_cons, if_pos before]
            cases n with
            | zero => simp
            | succ n => simp [List.take_take]
          · simp only [List.take_succ_cons, List.orderedInsert_cons, if_neg before, ih]

/-- What is inserted behind the first entries leaves them as they are. -/
theorem take_orderedInsert_of_behind [DecidableRel r] (a : α) (l : List α) {n : ℕ}
    (hn : n ≤ l.length) (behind : ∀ b ∈ l.take n, ¬ r a b) :
    (l.orderedInsert r a).take n = l.take n := by
  induction l generalizing n with
  | nil =>
      obtain rfl : n = 0 := by simpa using hn
      simp
  | cons b l ih =>
      cases n with
      | zero => simp
      | succ n =>
          rw [List.take_succ_cons] at behind
          rw [List.orderedInsert_cons, if_neg (behind b List.mem_cons_self), List.take_succ_cons,
            List.take_succ_cons, ih (by simpa using hn) fun c hc => behind c (List.mem_cons_of_mem _ hc)]

section Total

variable [DecidableRel r] [Std.Total r] [IsTrans α r]

/-- The worst entry with a property: nothing that has it stands before it. -/
theorem find_insertionSort {l : List α} {p : α → Bool} {a : α}
    (found : (l.insertionSort r).find? p = some a) :
    a ∈ l ∧ p a = true ∧ ∀ b ∈ l, p b = true → r a b := by
  have member : a ∈ l := (List.mem_insertionSort r).mp (List.mem_of_find?_eq_some found)
  refine ⟨member, List.find?_some found, ?_⟩
  intro b hb hp
  have before := rel_of_find r (List.pairwise_insertionSort r l) found b
    ((List.mem_insertionSort r).mpr hb) hp
  rcases before with rfl | before
  · rcases Std.Total.total (r := r) b b with refl | refl <;> exact refl
  · exact before

/-- An entry is among the first `k` when fewer than `k` stand strictly before it. -/
theorem mem_take_insertionSort {l : List α} (nodup : l.Nodup)
    (antisymm : ∀ a ∈ l, ∀ b ∈ l, r a b → r b a → a = b) {a : α} (ha : a ∈ l) {k : ℕ} :
    a ∈ (l.insertionSort r).take k ↔ l.countP (fun b => ¬r a b) < k := by
  have perm := List.perm_insertionSort r l
  have ordered := List.pairwise_insertionSort r l
  have sorted_nodup : (l.insertionSort r).Nodup := perm.nodup_iff.mpr nodup
  obtain ⟨before, behind, split⟩ := List.append_of_mem ((List.mem_insertionSort r).mpr ha)
  rw [← perm.countP_eq, split]
  rw [split] at ordered sorted_nodup
  have members : ∀ b ∈ before, b ∈ l := by
    intro b hb
    rw [← List.mem_insertionSort r, split]
    exact List.mem_append_left _ hb
  have outside : a ∉ before := fun h =>
    (List.nodup_append.mp sorted_nodup).2.2 a h a List.mem_cons_self rfl
  have counted : (before ++ a :: behind).countP (fun b => ¬r a b) = before.length := by
    rw [List.countP_append, List.countP_eq_length.mpr, List.countP_eq_zero.mpr, Nat.add_zero]
    · intro b hb
      rcases List.mem_cons.mp hb with rfl | hb
      · rcases Std.Total.total (r := r) b b with refl | refl <;> simp [refl]
      · have later := (List.pairwise_cons.mp (List.pairwise_append.mp ordered).2.1).1 b hb
        simp [later]
    · intro b hb
      have earlier := (List.pairwise_append.mp ordered).2.2 b hb a List.mem_cons_self
      have strict : ¬r a b := fun back =>
        outside (antisymm b (members b hb) a ha earlier back ▸ hb)
      simp [strict]
  rw [counted, List.take_append, List.mem_append]
  constructor
  · rintro (h | h)
    · exact absurd (List.mem_of_mem_take h) outside
    · by_contra few
      have none_left : k - before.length = 0 := by omega
      simp [none_left] at h
  · intro few
    obtain ⟨m, hm⟩ : ∃ m, k - before.length = m + 1 := ⟨k - before.length - 1, by omega⟩
    right
    rw [hm, List.take_succ_cons]
    exact List.mem_cons_self

end Total

end Lss.Library.Ranking
