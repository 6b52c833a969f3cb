import Mathlib.Algebra.BigOperators.Ring.Finset
import Mathlib.Algebra.Order.BigOperators.Group.Finset
import Mathlib.Algebra.Order.Field.Basic
import Mathlib.Data.List.Induction
import Mathlib.Tactic.Linarith
import Mathlib.Tactic.Ring

/-!
# Amounts moved back into earlier room

Places in an order, each with some room and something held. What one place holds is taken out of
it and spread over the empty places before it, to each by its share of their room and never more
than its room. Several places are emptied one after the other, from the first on: what was filled
for one is no longer empty for the next.
-/

set_option autoImplicit false

namespace Lss.Library.Refill

variable {ι : Type*} [LinearOrder ι] {K : Type*} [Field K] [LinearOrder K]

section Spread

variable (places : Finset ι) (room held : ι → K)

/-- The empty places before a place. -/
def holes (b : ι) : Finset ι := places.filter fun t => t < b ∧ 0 < room t ∧ held t = 0

/-- The room of the empty places before a place. -/
def roomBefore (b : ι) : K := ∑ t ∈ holes places room held b, room t

/-- The part of the room that is filled. -/
def share (b : ι) : K :=
  if 0 < roomBefore places room held b then min (held b / roomBefore places room held b) 1 else 0

/-- What is held once a place is emptied over the places before it. -/
def spread (b : ι) : ι → K := fun t =>
  if t = b then 0
  else if t ∈ holes places room held b then room t * share places room held b
  else held t

/-- What is held once some places are emptied, one after the other. -/
def spreadAll (bs : List ι) : ι → K := bs.foldl (fun h b => spread places room h b) held

@[simp] theorem spreadAll_nil : spreadAll places room held [] = held := rfl

theorem spreadAll_concat (bs : List ι) (b : ι) :
    spreadAll places room held (bs ++ [b]) =
      spread places room (spreadAll places room held bs) b := by
  simp [spreadAll]

variable {places room held}

theorem mem_holes {t b : ι} :
    t ∈ holes places room held b ↔ t ∈ places ∧ t < b ∧ 0 < room t ∧ held t = 0 := by
  simp [holes]

@[simp] theorem spread_self (b : ι) : spread places room held b b = 0 := by simp [spread]

theorem spread_hole {t b : ι} (h : t ∈ holes places room held b) :
    spread places room held b t = room t * share places room held b := by
  have before := (mem_holes.mp h).2.1
  simp [spread, h, before.ne]

theorem spread_other {t b : ι} (ne : t ≠ b) (h : t ∉ holes places room held b) :
    spread places room held b t = held t := by
  simp [spread, ne, h]

/-- Places behind the one that is emptied keep what they hold. -/
theorem spread_behind {t b : ι} (behind : b < t) : spread places room held b t = held t := by
  apply spread_other behind.ne'
  intro hole
  exact absurd (mem_holes.mp hole).2.1 behind.not_gt

/-- Places behind all that are emptied keep what they hold. -/
theorem spreadAll_behind {bs : List ι} {t : ι} (behind : ∀ b ∈ bs, b < t) :
    spreadAll places room held bs t = held t := by
  induction bs using List.reverseRecOn with
  | nil => simp
  | append_singleton bs b ih =>
      rw [spreadAll_concat, spread_behind (behind b (by simp))]
      exact ih fun c hc => behind c (List.mem_append_left _ hc)

end Spread

variable [IsStrictOrderedRing K] {places : Finset ι} {room held : ι → K}

/-! ## One place -/

theorem roomBefore_nonneg (b : ι) : 0 ≤ roomBefore places room held b :=
  Finset.sum_nonneg fun _ ht => (mem_holes.mp ht).2.2.1.le

theorem roomBefore_pos {t b : ι} (h : t ∈ holes places room held b) :
    0 < roomBefore places room held b :=
  Finset.sum_pos (fun _ ht => (mem_holes.mp ht).2.2.1) ⟨t, h⟩

theorem share_le_one (b : ι) : share places room held b ≤ 1 := by
  unfold share
  split
  · exact min_le_right _ _
  · exact zero_le_one

theorem share_pos {t b : ι} (h : t ∈ holes places room held b) (full : 0 < held b) :
    0 < share places room held b := by
  unfold share
  rw [if_pos (roomBefore_pos h)]
  exact lt_min (div_pos full (roomBefore_pos h)) one_pos

theorem spread_hole_pos {t b : ι} (h : t ∈ holes places room held b) (full : 0 < held b) :
    0 < spread places room held b t := by
  rw [spread_hole h]
  exact mul_pos (mem_holes.mp h).2.2.1 (share_pos h full)

/-- As much is filled as there is room for. -/
theorem roomBefore_mul_share {b : ι} (full : 0 ≤ held b) :
    roomBefore places room held b * share places room held b =
      min (held b) (roomBefore places room held b) := by
  unfold share
  split
  · rename_i some_room
    rw [mul_min_of_nonneg _ _ some_room.le, mul_one, mul_div_cancel₀ _ some_room.ne']
  · rename_i no_room
    have none_left := le_antisymm (not_lt.mp no_room) (roomBefore_nonneg b)
    rw [none_left, zero_mul, min_eq_right full]

/-- What is lost of a place that is emptied is what finds no room. -/
theorem sum_spread {b : ι} (hb : b ∈ places) (full : 0 ≤ held b) :
    ∑ t ∈ places, spread places room held b t =
      ∑ t ∈ places, held t - (held b - min (held b) (roomBefore places room held b)) := by
  have change : ∀ t ∈ places, spread places room held b t =
      held t + ((if t = b then -held b else 0) +
        (if t ∈ holes places room held b then room t * share places room held b else 0)) := by
    intro t _
    by_cases here : t = b
    · subst here
      have outside : t ∉ holes places room held t := fun h => (mem_holes.mp h).2.1.false
      simp [outside]
    · by_cases hole : t ∈ holes places room held b
      · rw [spread_hole hole, if_neg here, if_pos hole, (mem_holes.mp hole).2.2.2]
        ring
      · rw [spread_other here hole, if_neg here, if_neg hole]
        ring
  have filled : ∑ t ∈ places, (if t ∈ holes places room held b then
      room t * share places room held b else 0) =
        min (held b) (roomBefore places room held b) := by
    have inside : places.filter (fun t => t ∈ holes places room held b) =
        holes places room held b :=
      Finset.filter_mem_eq_inter.trans (Finset.inter_eq_right.mpr (Finset.filter_subset _ _))
    rw [← Finset.sum_filter, inside, ← Finset.sum_mul]
    exact roomBefore_mul_share full
  rw [Finset.sum_congr rfl change, Finset.sum_add_distrib, Finset.sum_add_distrib, filled,
    Finset.sum_ite_eq' places b, if_pos hb]
  ring

/-! ## One place after the other -/

/-- What is left empty: what held nothing or was emptied, and has no emptied place behind it. -/
theorem spreadAll_eq_zero_iff {bs : List ι} (ascending : bs.Pairwise (· < ·))
    (full : ∀ b ∈ bs, 0 < held b) {t : ι} (ht : t ∈ places) (some_room : 0 < room t) :
    spreadAll places room held bs t = 0 ↔
      (held t = 0 ∨ t ∈ bs) ∧ ∀ b ∈ bs, b ≤ t := by
  induction bs using List.reverseRecOn with
  | nil => simp
  | append_singleton bs b ih =>
      have before : ∀ c ∈ bs, c < b := by
        intro c hc
        exact (List.pairwise_append.mp ascending).2.2 c hc b (by simp)
      have ih := ih (List.pairwise_append.mp ascending).1
        fun c hc => full c (List.mem_append_left _ hc)
      have own : spreadAll places room held bs b = held b := spreadAll_behind before
      have full_b : 0 < spreadAll places room held bs b := own ▸ full b (by simp)
      simp only [spreadAll_concat, List.mem_append, List.mem_singleton, or_imp, forall_and,
        forall_eq]
      rcases lt_trichotomy t b with earlier | rfl | later
      · -- before the place: an empty one is filled, the others were not empty
        have not_last : ¬b ≤ t := not_le.mpr earlier
        rw [iff_false_right (fun h => not_last h.2.2)]
        by_cases hole : t ∈ holes places room (spreadAll places room held bs) b
        · exact (spread_hole_pos hole full_b).ne'
        · rw [spread_other earlier.ne hole]
          intro empty
          exact hole (mem_holes.mpr ⟨ht, earlier, some_room, empty⟩)
      · simp only [spread_self, or_true, le_refl, and_true, true_and, true_iff]
        exact fun c hc => (before c hc).le
      · rw [spread_behind later, ih]
        constructor
        · rintro ⟨empty, last⟩
          exact ⟨empty.imp_right Or.inl, last, later.le⟩
        · rintro ⟨empty, last, _⟩
          refine ⟨empty.imp_right fun h => h.resolve_right later.ne', last⟩

/-- The room that is left for a place when its turn comes: of the places that held nothing or
were emptied, those with no emptied place between. -/
def roomSince (places : Finset ι) (room held : ι → K) (bs : List ι) (b : ι) : K :=
  ∑ t ∈ places.filter fun t => t < b ∧ 0 < room t ∧ (held t = 0 ∨ t ∈ bs) ∧
    ∀ c ∈ bs, c < b → c ≤ t, room t

theorem roomBefore_spreadAll {pre post : List ι} {b : ι}
    (ascending : (pre ++ b :: post).Pairwise (· < ·)) (full : ∀ c ∈ pre, 0 < held c) :
    roomBefore places room (spreadAll places room held pre) b =
      roomSince places room held (pre ++ b :: post) b := by
  have before : ∀ c ∈ pre, c < b := fun c hc =>
    (List.pairwise_append.mp ascending).2.2 c hc b (by simp)
  have behind : ∀ c ∈ post, b < c :=
    (List.pairwise_cons.mp (List.pairwise_append.mp ascending).2.1).1
  unfold roomBefore roomSince holes
  congr 1
  apply Finset.filter_congr
  intro t ht
  apply and_congr_right
  intro earlier
  apply and_congr_right
  intro some_room
  rw [spreadAll_eq_zero_iff (List.pairwise_append.mp ascending).1 full ht some_room]
  have member : t ∈ pre ++ b :: post ↔ t ∈ pre := by
    simp only [List.mem_append, List.mem_cons]
    constructor
    · rintro (h | rfl | h)
      · exact h
      · exact absurd earlier (lt_irrefl _)
      · exact absurd earlier (behind t h).not_gt
    · exact Or.inl
  have last : (∀ c ∈ pre ++ b :: post, c < b → c ≤ t) ↔ ∀ c ∈ pre, c ≤ t := by
    constructor
    · intro h c hc
      exact h c (List.mem_append_left _ hc) (before c hc)
    · intro h c hc early
      simp only [List.mem_append, List.mem_cons] at hc
      rcases hc with hc | rfl | hc
      · exact h c hc
      · exact absurd early (lt_irrefl _)
      · exact absurd early (behind c hc).not_gt
  rw [member, last]

/-- Nothing is lost exactly when every place finds room enough when its turn comes. -/
theorem sum_spreadAll_iff {bs : List ι} (ascending : bs.Pairwise (· < ·))
    (full : ∀ b ∈ bs, 0 < held b) (inside : ∀ b ∈ bs, b ∈ places) :
    ∑ t ∈ places, spreadAll places room held bs t = ∑ t ∈ places, held t ↔
      ∀ b ∈ bs, held b ≤ roomSince places room held bs b := by
  -- what is lost never comes back, so it is enough to look at each turn
  have turns : ∀ pre post, bs = pre ++ post →
      ∑ t ∈ places, spreadAll places room held pre t ≤ ∑ t ∈ places, held t ∧
        (∑ t ∈ places, spreadAll places room held pre t = ∑ t ∈ places, held t ↔
          ∀ b ∈ pre, held b ≤ roomSince places room held bs b) := by
    intro pre
    induction pre using List.reverseRecOn with
    | nil => simp
    | append_singleton pre b ih =>
        intro post split
        have split' : bs = pre ++ b :: post := by rw [split]; simp
        have full_pre : ∀ c ∈ pre, 0 < held c := fun c hc => full c (by rw [split']; simp [hc])
        have ascending' := split' ▸ ascending
        have before : ∀ c ∈ pre, c < b := fun c hc =>
          (List.pairwise_append.mp ascending').2.2 c hc b (by simp)
        have own : spreadAll places room held pre b = held b := spreadAll_behind before
        have full_b : 0 < held b := full b (by rw [split']; simp)
        have turn : ∑ t ∈ places, spread places room (spreadAll places room held pre) b t = _ :=
          sum_spread (inside b (by rw [split']; simp)) (own ▸ full_b.le)
        rw [own, roomBefore_spreadAll ascending' full_pre, ← split'] at turn
        obtain ⟨less, same⟩ := ih (b :: post) split'
        have lost : min (held b) (roomSince places room held bs b) ≤ held b := min_le_left _ _
        rw [spreadAll_concat]
        refine ⟨by linarith, ?_⟩
        simp only [List.mem_append, List.mem_singleton, or_imp, forall_and, forall_eq, ← same]
        constructor
        · intro equal
          have none_lost : min (held b) (roomSince places room held bs b) = held b := by linarith
          exact ⟨by linarith, min_eq_left_iff.mp none_lost⟩
        · rintro ⟨equal, fits⟩
          rw [min_eq_left fits] at turn
          linarith
  exact (turns bs [] (by simp)).2

end Lss.Library.Refill
