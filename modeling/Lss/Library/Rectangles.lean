import Mathlib.Data.Nat.Notation
import Mathlib.Data.List.Perm.Basic
import Mathlib.Data.List.Count

/-!
# Rectangles of cells

A list of rectangles tiles a rectangle when each of its cells is in exactly one of them and no other
cell is in any. Tilings are put together along the cut of a rectangle in two, and what a tiling
means for a screen is read off: nothing is drawn twice, nothing outside, and no cell is left blank.
-/

set_option autoImplicit false

namespace Lss.Library.Rectangles

/-- Some columns of some rows. -/
structure Rect where
  x : ℕ
  y : ℕ
  width : ℕ
  height : ℕ
deriving DecidableEq

/-- A column and a row. -/
abbrev Cell := ℕ × ℕ

/-- A cell is in a rectangle. -/
def Rect.Has (r : Rect) (c : Cell) : Prop :=
  r.x ≤ c.1 ∧ c.1 < r.x + r.width ∧ r.y ≤ c.2 ∧ c.2 < r.y + r.height

instance (r : Rect) (c : Cell) : Decidable (r.Has c) :=
  inferInstanceAs (Decidable (_ ∧ _ ∧ _ ∧ _))

/-- How many of the rectangles a cell is in. -/
def layers (rs : List Rect) (c : Cell) : ℕ := rs.countP fun r => decide (r.Has c)

/-- Each cell of a rectangle is in one of the others, and no other cell is. -/
def Tiles (r : Rect) (rs : List Rect) : Prop := ∀ c, layers rs c = if r.Has c then 1 else 0

/-- No cell is in both. -/
def Apart (a b : Rect) : Prop := ∀ c, ¬(a.Has c ∧ b.Has c)

/-- A rectangle is cut in two. -/
structure Cut (r a b : Rect) : Prop where
  whole : ∀ c, r.Has c ↔ a.Has c ∨ b.Has c
  apart : Apart a b

@[simp] theorem layers_nil (c : Cell) : layers [] c = 0 := rfl

theorem layers_cons (r : Rect) (rs : List Rect) (c : Cell) :
    layers (r :: rs) c = layers rs c + if r.Has c then 1 else 0 := by
  unfold layers
  rw [List.countP_cons]
  simp

@[simp] theorem layers_append (as bs : List Rect) (c : Cell) :
    layers (as ++ bs) c = layers as c + layers bs c := List.countP_append

/-! ## Cuts -/

/-- The upper rows and the lower ones. -/
theorem cut_rows (r : Rect) {h : ℕ} (le : h ≤ r.height) :
    Cut r { r with height := h } { r with y := r.y + h, height := r.height - h } where
  whole := by
    intro c
    unfold Rect.Has
    dsimp only
    omega
  apart := by
    intro c
    unfold Rect.Has
    dsimp only
    omega

/-- The columns on the left and the ones on the right. -/
theorem cut_columns (r : Rect) {w : ℕ} (le : w ≤ r.width) :
    Cut r { r with width := w } { r with x := r.x + w, width := r.width - w } where
  whole := by
    intro c
    unfold Rect.Has
    dsimp only
    omega
  apart := by
    intro c
    unfold Rect.Has
    dsimp only
    omega

/-! ## Tilings -/

theorem tiles_self (r : Rect) : Tiles r [r] := by
  intro c
  rw [layers_cons, layers_nil, Nat.zero_add]

/-- A rectangle without a cell is tiled by nothing. -/
theorem tiles_nil {r : Rect} (h : r.width = 0 ∨ r.height = 0) : Tiles r [] := by
  intro c
  rw [layers_nil, if_neg]
  unfold Rect.Has
  omega

/-- The tilings of the two parts of a rectangle tile it. -/
theorem Cut.tiles {r a b : Rect} (h : Cut r a b) {as bs : List Rect} (ha : Tiles a as)
    (hb : Tiles b bs) : Tiles r (as ++ bs) := by
  intro c
  rw [layers_append, ha c, hb c]
  have whole := h.whole c
  have apart := h.apart c
  by_cases left : a.Has c
  · rw [if_pos left, if_neg fun right => apart ⟨left, right⟩, if_pos (whole.mpr (.inl left))]
  · by_cases right : b.Has c
    · rw [if_neg left, if_pos right, if_pos (whole.mpr (.inr right))]
    · rw [if_neg left, if_neg right, if_neg fun there => (whole.mp there).elim left right]

theorem Tiles.perm {r : Rect} {as bs : List Rect} (h : Tiles r as) (p : as.Perm bs) :
    Tiles r bs := by
  intro c
  rw [← h c]
  exact (p.countP_eq _).symm

/-- Nothing is outside. -/
theorem Tiles.inside {r a : Rect} {rs : List Rect} (h : Tiles r rs) (ha : a ∈ rs) {c : Cell}
    (hc : a.Has c) : r.Has c := by
  by_contra outside
  have none := h c
  rw [if_neg outside, layers, List.countP_eq_zero] at none
  exact none a ha (by simpa using hc)

/-- No cell is left out. -/
theorem Tiles.covers {r : Rect} {rs : List Rect} (h : Tiles r rs) {c : Cell} (hc : r.Has c) :
    ∃ a ∈ rs, a.Has c := by
  have one := h c
  rw [if_pos hc, layers] at one
  obtain ⟨a, ha, there⟩ := List.countP_pos_iff.mp (by omega : 0 < rs.countP fun r => decide (r.Has c))
  exact ⟨a, ha, by simpa using there⟩

/-- No cell is in two of them. -/
theorem Tiles.apart {r : Rect} {rs : List Rect} (h : Tiles r rs) : rs.Pairwise Apart := by
  have once : ∀ c, layers rs c ≤ 1 := by
    intro c
    rw [h c]
    split <;> omega
  clear h
  induction rs with
  | nil => exact List.Pairwise.nil
  | cons a rs ih =>
      refine List.Pairwise.cons ?_ (ih fun c => ?_)
      · intro b hb c both
        have twice := once c
        have there : 0 < layers rs c := List.countP_pos_iff.mpr ⟨b, hb, by simpa using both.2⟩
        rw [layers_cons, if_pos both.1] at twice
        omega
      · have all := once c
        rw [layers_cons] at all
        omega

end Lss.Library.Rectangles
