import Mathlib.Algebra.Order.BigOperators.Group.List
import Mathlib.Data.Int.Basic
import Mathlib.Data.List.Basic

/-!
# Steps between neighbours

A list of things in order of time has a step from each of them to the next. Dropping some of
the things merges the steps around them; the steps that are left as they were are those whose
two ends are kept.
-/

set_option autoImplicit false

namespace Lss.Library.Steps

variable {α β : Type*}

/-- Each thing with the next one. -/
def steps (xs : List α) : List (α × α) := xs.zip xs.tail

@[simp] theorem steps_nil : steps ([] : List α) = [] := rfl

theorem steps_cons (x : α) (xs : List α) :
    steps (x :: xs) = (xs.head?.map fun y => (x, y)).toList ++ steps xs := by
  cases xs <;> rfl

theorem steps_concat (xs : List α) (y : α) :
    steps (xs ++ [y]) = steps xs ++ (xs.getLast?.map fun x => (x, y)).toList := by
  induction xs with
  | nil => rfl
  | cons x xs ih =>
      rw [List.cons_append, steps_cons, ih, steps_cons, List.append_assoc, List.getLast?_cons]
      cases xs with
      | nil => rfl
      | cons z zs =>
          rw [List.getLast?_cons]
          rfl

theorem steps_map (f : α → β) (xs : List α) :
    steps (xs.map f) = (steps xs).map fun p => (f p.1, f p.2) := by
  unfold steps
  rw [← List.map_tail, List.zip_map]
  rfl

theorem mem_of_mem_steps {xs : List α} {p : α × α} (h : p ∈ steps xs) : p.1 ∈ xs ∧ p.2 ∈ xs := by
  obtain ⟨hfst, hsnd⟩ := List.of_mem_zip (a := p.1) (b := p.2) h
  exact ⟨hfst, List.mem_of_mem_tail hsnd⟩

/-- What holds between everything and everything later holds along the steps. -/
theorem rel_of_mem_steps {R : α → α → Prop} {xs : List α} (h : xs.Pairwise R) {p : α × α}
    (hp : p ∈ steps xs) : R p.1 p.2 := by
  induction xs with
  | nil => exact absurd hp (by simp)
  | cons x xs ih =>
      rw [List.pairwise_cons] at h
      rw [steps_cons, List.mem_append] at hp
      rcases hp with hp | hp
      · rw [Option.mem_toList, Option.map_eq_some_iff] at hp
        obtain ⟨y, hy, rfl⟩ := hp
        exact h.1 y (List.mem_of_mem_head? hy)
      · exact ih h.2 hp

/-- What holds between everything and everything later holds between the starts of the steps. -/
theorem pairwise_steps {R : α → α → Prop} {xs : List α} (h : xs.Pairwise R) :
    (steps xs).Pairwise fun p q => R p.1 q.1 := by
  induction xs with
  | nil => exact List.Pairwise.nil
  | cons x xs ih =>
      rw [List.pairwise_cons] at h
      rw [steps_cons]
      cases xs.head? with
      | none => exact ih h.2
      | some y =>
          refine List.pairwise_cons.mpr ⟨?_, ih h.2⟩
          intro q hq
          exact h.1 q.1 (mem_of_mem_steps hq).1

/-- Nothing of a list lies strictly between the ends of a step. -/
def Direct (time : α → ℤ) (xs : List α) (p : α × α) : Prop :=
  ∀ z ∈ xs, ¬ (time p.1 < time z ∧ time z < time p.2)

instance (time : α → ℤ) (xs : List α) (p : α × α) : Decidable (Direct time xs p) :=
  inferInstanceAs (Decidable (∀ z ∈ xs, ¬ (time p.1 < time z ∧ time z < time p.2)))

theorem direct_cons_of_lt {time : α → ℤ} {x : α} {xs : List α} {p : α × α}
    (h : time x < time p.1) : Direct time (x :: xs) p ↔ Direct time xs p := by
  unfold Direct
  rw [List.forall_mem_cons]
  constructor
  · exact fun hall => hall.2
  · intro hall
    exact ⟨fun hbetween => by omega, hall⟩

/-- The steps between things that are kept, with nothing in between, are the steps of the whole
list whose two ends are kept. -/
theorem steps_filter {time : α → ℤ} {xs : List α} (keep : α → Bool)
    (increasing : xs.Pairwise fun x y => time x < time y) :
    (steps (xs.filter keep)).filter (fun p => decide (Direct time xs p)) =
      (steps xs).filter fun p => keep p.1 && keep p.2 := by
  induction xs with
  | nil => rfl
  | cons x xs ih =>
      rw [List.pairwise_cons] at increasing
      have hrest : (steps (xs.filter keep)).filter (fun p => decide (Direct time (x :: xs) p)) =
          (steps xs).filter fun p => keep p.1 && keep p.2 := by
        rw [← ih increasing.2]
        apply List.filter_congr
        intro p hp
        have hmem := (List.mem_filter.1 (mem_of_mem_steps hp).1).1
        exact decide_eq_decide.2 (direct_cons_of_lt (increasing.1 _ hmem))
      rw [steps_cons x xs, List.filter_append]
      by_cases hx : keep x = true
      · rw [List.filter_cons_of_pos hx, steps_cons, List.filter_append, hrest]
        congr 1
        cases xs with
        | nil => rfl
        | cons y ys =>
            have hxy := increasing.1 y (by simp)
            have hlater := (List.pairwise_cons.1 increasing.2).1
            by_cases hy : keep y = true
            · -- the next one is kept: nothing lies between
              have hdirect : Direct time (x :: y :: ys) (x, y) := by
                intro z hz hbetween
                dsimp only at hbetween
                rcases List.mem_cons.1 hz with rfl | hz
                · omega
                · rcases List.mem_cons.1 hz with rfl | hz
                  · omega
                  · have hyz := hlater z hz
                    omega
              rw [List.filter_cons_of_pos hy]
              simp [hx, hy, hdirect]
            · -- the next one is dropped: it lies between `x` and whatever is kept after it
              rw [List.filter_cons_of_neg hy]
              cases hhead : (ys.filter keep).head? with
              | none => simp [hy]
              | some h =>
                  have hmem := (List.mem_filter.1 (List.mem_of_mem_head? hhead)).1
                  have hbetween : ¬ Direct time (x :: y :: ys) (x, h) := by
                    intro hdirect
                    exact hdirect y (by simp) ⟨hxy, hlater h hmem⟩
                  simp [hy, hbetween]
      · rw [List.filter_cons_of_neg hx, hrest]
        cases xs.head? with
        | none => rfl
        | some y => simp [hx]

/-- Dropping everything before a time drops the steps that begin before it. -/
theorem steps_filter_le {time : α → ℤ} {xs : List α} (t : ℤ)
    (increasing : xs.Pairwise fun x y => time x < time y) :
    steps (xs.filter fun x => decide (t ≤ time x)) =
      (steps xs).filter fun p => decide (t ≤ time p.1) := by
  induction xs with
  | nil => rfl
  | cons x xs ih =>
      rw [List.pairwise_cons] at increasing
      by_cases hx : t ≤ time x
      · -- everything is kept
        have hkeep : ∀ y ∈ x :: xs, decide (t ≤ time y) = true := by
          intro y hy
          rw [decide_eq_true_iff]
          rcases List.mem_cons.1 hy with rfl | hy
          · exact hx
          · exact hx.trans (increasing.1 y hy).le
        rw [List.filter_eq_self.2 hkeep, List.filter_eq_self.2]
        intro p hp
        exact hkeep p.1 (mem_of_mem_steps hp).1
      · have hfirst : (xs.head?.map fun y => (x, y)).toList.filter
            (fun p => decide (t ≤ time p.1)) = [] := by
          rw [List.filter_eq_nil_iff]
          intro p hp
          rw [Option.mem_toList, Option.map_eq_some_iff] at hp
          obtain ⟨y, -, rfl⟩ := hp
          simpa using hx
        rw [List.filter_cons_of_neg (by simpa using hx), ih increasing.2, steps_cons,
          List.filter_append, hfirst, List.nil_append]

/-! ## Sums over a list -/

section Sums

variable {R : Type*} [AddCommMonoid R]

/-- A sum is made of what meets a condition and what does not. -/
theorem sum_filter_add (f : α → R) (keep : α → Prop) [DecidablePred keep] (xs : List α) :
    (xs.map f).sum = ((xs.filter fun x => keep x).map f).sum +
      ((xs.filter fun x => ¬ keep x).map f).sum := by
  induction xs with
  | nil => simp
  | cons x xs ih =>
      rw [List.map_cons, List.sum_cons, ih]
      by_cases hx : keep x
      · rw [List.filter_cons_of_pos (by simpa using hx), List.filter_cons_of_neg (by simpa using hx),
          List.map_cons, List.sum_cons, add_assoc]
      · rw [List.filter_cons_of_neg (by simpa using hx), List.filter_cons_of_pos (by simpa using hx),
          List.map_cons, List.sum_cons, add_left_comm]

/-- A sum of things that are not negative is zero only when each of them is. -/
theorem sum_eq_zero_iff [PartialOrder R] [IsOrderedAddMonoid R] {f : α → R} {xs : List α}
    (h : ∀ x ∈ xs, 0 ≤ f x) : (xs.map f).sum = 0 ↔ ∀ x ∈ xs, f x = 0 := by
  induction xs with
  | nil => simp
  | cons x xs ih =>
      have hrest : ∀ y ∈ xs, 0 ≤ f y := fun y hy => h y (List.mem_cons_of_mem _ hy)
      have hsum : 0 ≤ (xs.map f).sum := List.sum_nonneg (by simpa using hrest)
      rw [List.map_cons, List.sum_cons, add_eq_zero_iff_of_nonneg (h x (by simp)) hsum,
        ih hrest, List.forall_mem_cons]

/-- The steps of a quantity add up to what lies between its first and its last value. -/
theorem sum_steps_sub {R : Type*} [AddCommGroup R] (f : α → R) (x : α) (xs : List α) :
    ((steps (x :: xs)).map fun p => f p.2 - f p.1).sum =
      f ((x :: xs).getLast (List.cons_ne_nil x xs)) - f x := by
  induction xs generalizing x with
  | nil => exact (sub_self (f x)).symm
  | cons y ys ih =>
      rw [steps_cons, List.head?_cons, Option.map_some, Option.toList_some,
        List.singleton_append, List.map_cons, List.sum_cons, ih, List.getLast_cons_cons]
      exact sub_add_sub_cancel' _ _ _

end Sums

/-! ## Things that are missing at times -/

section Gaps

/-- The steps over places where something is missing. `last` is what was there last, and `gap`
says whether something was missing since. -/
def gaps : Option α → Bool → List (Option α) → List (α × α)
  | _, _, [] => []
  | last, _, none :: xs => gaps last true xs
  | last, gap, some x :: xs =>
    (if gap then (last.map fun l => (l, x)).toList else []) ++ gaps (some x) false xs

/-- A quantity of the steps of which both ends are there. -/
def ofBoth {R : Type*} [Zero R] (f : α × α → R) : Option α × Option α → R
  | (some a, some b) => f (a, b)
  | _ => 0

theorem mem_gaps {last : Option α} {gap : Bool} {xs : List (Option α)} {p : α × α}
    (h : p ∈ gaps last gap xs) : p ∈ steps (last.toList ++ xs.filterMap id) := by
  induction xs generalizing last gap with
  | nil => exact absurd h (by simp [gaps])
  | cons x xs ih =>
      cases x with
      | none => exact ih h
      | some x =>
          have hcons : (some x :: xs).filterMap id = x :: xs.filterMap id := rfl
          rw [hcons]
          have hrest : p ∈ gaps (some x) false xs →
              p ∈ steps (last.toList ++ x :: xs.filterMap id) := by
            intro hp
            have hin := ih hp
            cases last with
            | none => exact hin
            | some l => exact List.mem_cons_of_mem _ hin
          rcases List.mem_append.1 h with h | h
          · split at h
            · rw [Option.mem_toList, Option.map_eq_some_iff] at h
              obtain ⟨l, rfl, rfl⟩ := h
              exact List.mem_cons_self ..
            · exact absurd h (by simp)
          · exact hrest h

/-- The steps between the things that are there are those between neighbours, and those over
gaps. -/
theorem sum_steps_filterMap {R : Type*} [AddCommMonoid R] (f : α × α → R) (last : Option α)
    (gap : Bool) (xs : List (Option α)) :
    ((steps (last.toList ++ xs.filterMap id)).map f).sum =
      ((steps ((if gap then none else last) :: xs)).map (ofBoth f)).sum +
        ((gaps last gap xs).map f).sum := by
  induction xs generalizing last gap with
  | nil =>
      cases last <;> simp [gaps, steps]
  | cons x xs ih =>
      cases x with
      | none =>
          have hfirst : ofBoth f (if gap then none else last, none) = 0 := by
            cases (if gap then none else last) <;> rfl
          have hrest := ih last true
          rw [if_pos rfl] at hrest
          rw [steps_cons _ (none :: xs)]
          simp only [List.head?_cons, Option.map_some, Option.toList_some, List.singleton_append,
            List.map_cons, List.sum_cons, hfirst, zero_add]
          exact hrest
      | some x =>
          have hrest := ih (some x) false
          simp only [Option.toList_some, List.singleton_append, Bool.false_eq_true,
            if_false] at hrest
          have hcons : (some x :: xs).filterMap id = x :: xs.filterMap id := rfl
          rw [hcons, steps_cons _ (some x :: xs), gaps]
          simp only [List.head?_cons, Option.map_some, Option.toList_some, List.singleton_append,
            List.map_cons, List.sum_cons, List.map_append, List.sum_append]
          cases last with
          | none =>
              rw [Option.toList_none, List.nil_append, hrest]
              cases gap <;> simp [ofBoth]
          | some l =>
              rw [Option.toList_some, List.singleton_append, steps_cons, List.head?_cons]
              simp only [Option.map_some, Option.toList_some, List.singleton_append,
                List.map_cons, List.sum_cons, hrest]
              cases gap with
              | true => simp [ofBoth, add_left_comm]
              | false => simp [ofBoth, add_assoc]

end Gaps

end Lss.Library.Steps
