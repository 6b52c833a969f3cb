import Mathlib.Data.List.Induction

/-!
# Trails

A trail is the list of what happened, the oldest first. What holds of each entry may depend on the
entries before it.
-/

set_option autoImplicit false

namespace Lss.Library

variable {α : Type}

/-- Every entry of a trail stands as asked to those before it. -/
def EachAfter (P : List α → α → Prop) (trail : List α) : Prop :=
  ∀ before a after, trail = before ++ a :: after → P before a

variable {P Q : List α → α → Prop}

theorem eachAfter_nil : EachAfter P [] := by
  intro before a after h
  exact absurd h.symm (by simp)

/-- A trail and one more entry. -/
theorem eachAfter_concat {trail : List α} {a : α} :
    EachAfter P (trail ++ [a]) ↔ EachAfter P trail ∧ P trail a := by
  constructor
  · intro h
    refine ⟨?_, h trail a [] rfl⟩
    intro before b after hb
    apply h before b (after ++ [a])
    rw [hb, List.append_assoc, List.cons_append]
  · rintro ⟨h, last⟩ before b after hb
    cases after using List.reverseRecOn with
    | nil =>
        obtain ⟨rfl, hab⟩ := List.append_inj' hb rfl
        obtain rfl := List.head_eq_of_cons_eq hab
        exact last
    | append_singleton after c =>
        rw [← List.cons_append, ← List.append_assoc] at hb
        obtain ⟨htrail, _⟩ := List.append_inj' hb rfl
        exact h before b after htrail

theorem EachAfter.imp {trail : List α} (h : EachAfter P trail)
    (himp : ∀ before a, P before a → Q before a) : EachAfter Q trail :=
  fun before a after htrail => himp before a (h before a after htrail)

/-- What stands as asked in a trail does so in its beginnings. -/
theorem EachAfter.of_prefix {trail beginning : List α} (h : EachAfter P trail)
    (begins : beginning <+: trail) : EachAfter P beginning := by
  obtain ⟨rest, rfl⟩ := begins
  intro before a after split
  apply h before a (after ++ rest)
  rw [split, List.append_assoc, List.cons_append]

end Lss.Library
