import Mathlib.Data.List.Basic
import Mathlib.Data.List.Induction

/-!
# Windows that keep what they begin with

A list grows at its end and is cut off at its front: everything older than a limit goes, but the
newest of the old elements stays, as what the window begins with. What is left depends on the
whole list only, not on where it was cut off before.
-/

set_option autoImplicit false

namespace Lss.Library.Window

variable {α : Type*} (old : α → Prop) [DecidablePred old]

/-- The end of a list from its last old element on; the whole list when at most its first element
is old. -/
def fromLastOld : List α → List α
  | first :: second :: rest =>
    if old second then fromLastOld (second :: rest) else first :: second :: rest
  | l => l

theorem getLast?_fromLastOld (l : List α) : (fromLastOld old l).getLast? = l.getLast? := by
  fun_induction fromLastOld old l with
  | case1 first second rest _ ih => rw [ih, List.getLast?_cons_cons]
  | case2 first second rest _ => rfl
  | case3 l _ => rfl

/-- What was cut off before would be cut off now. -/
theorem fromLastOld_append {old' : α → Prop} [DecidablePred old'] (h : ∀ x, old x → old' x)
    (l l' : List α) : fromLastOld old' (fromLastOld old l ++ l') = fromLastOld old' (l ++ l') := by
  fun_induction fromLastOld old l with
  | case1 first second rest second_old ih =>
      rw [ih]
      show _ = fromLastOld old' (first :: second :: (rest ++ l'))
      rw [fromLastOld, if_pos (h second second_old)]
      rfl
  | case2 first second rest _ => rfl
  | case3 l _ => rfl

/-- The element a window begins with: everything after it is not old, and it is old itself where
something was cut off. -/
structure BeginsWith (l cut : List α) (first : α) (rest : List α) : Prop where
  split : l = cut ++ first :: rest
  rest_new : ∀ x ∈ rest, ¬old x
  first_old : cut ≠ [] → old first

/-- In a list from old to new a window begins with the last old element. -/
theorem exists_beginsWith {l : List α} (sorted : l.Pairwise fun x y => old y → old x)
    (h : l ≠ []) : ∃ cut first rest, BeginsWith old l cut first rest ∧
      fromLastOld old l = first :: rest := by
  fun_induction fromLastOld old l with
  | case1 first second rest second_old ih =>
      obtain ⟨cut, x, rest', begins, same⟩ := ih (List.pairwise_cons.mp sorted).2
        (List.cons_ne_nil _ _)
      refine ⟨first :: cut, x, rest', ⟨?_, begins.rest_new, fun _ => ?_⟩, same⟩
      · rw [begins.split]
        rfl
      · cases cut with
        | nil =>
            obtain ⟨rfl, -⟩ := List.cons.inj begins.split
            exact second_old
        | cons c cut => exact begins.first_old (List.cons_ne_nil _ _)
  | case2 first second rest second_new =>
      refine ⟨[], first, second :: rest, ⟨rfl, ?_, fun h => absurd rfl h⟩, rfl⟩
      intro x hx
      rcases List.mem_cons.mp hx with rfl | hx
      · exact second_new
      · intro x_old
        have sorted' := (List.pairwise_cons.mp sorted).2
        exact second_new ((List.pairwise_cons.mp sorted').1 x hx x_old)
  | case3 l short =>
      cases l with
      | nil => exact absurd rfl h
      | cons first rest =>
          cases rest with
          | nil => exact ⟨[], first, [], ⟨rfl, nofun, fun h => absurd rfl h⟩, rfl⟩
          | cons second rest => exact absurd rfl (short first second rest)

end Lss.Library.Window
