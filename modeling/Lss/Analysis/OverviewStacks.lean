import Lss.Model.Overview
import Mathlib.Algebra.BigOperators.Group.List.Basic
import Mathlib.Algebra.Group.Nat.Defs

/-!
# Stacks of areas

The rows of a stack are handed out to its areas and none is lost: what the areas have and what is
left make up the height. Rows are left only where no area is a box. So a stack fills its columns
but for these rows, and it holds its areas in their order, as many as there are rows.
-/

set_option autoImplicit false

namespace Lss.Analysis.OverviewStacks

open Lss.Library.Rectangles Lss.Model.Screen Lss.Model.Overview

/-- The rows of all parts together. -/
def total (parts : List Part) : ℕ := (parts.map Part.h).sum

/-- Handing out rows: no row is lost, the areas stay in their order, no box goes away, and only boxes
are given any. -/
structure Hands (s r : ℕ × List Part) : Prop where
  rows : r.1 + total r.2 = s.1 + total s.2
  panels : r.2.map Part.panel = s.2.map Part.panel
  boxes : r.2.map Part.boxed = s.2.map Part.boxed
  grown : ∀ n, (∀ p ∈ s.2, n ≤ p.h) → ∀ p ∈ r.2, n ≤ p.h
  still : (∀ p ∈ s.2, p.boxed = false) → r = s

@[simp] theorem total_nil : total [] = 0 := rfl

@[simp] theorem total_cons (p : Part) (ps : List Part) : total (p :: ps) = p.h + total ps := rfl

theorem hands_refl (s : ℕ × List Part) : Hands s s := ⟨rfl, rfl, rfl, fun _ h => h, fun _ => rfl⟩

theorem Hands.trans {s r q : ℕ × List Part} (h : Hands s r) (h' : Hands r q) : Hands s q where
  rows := h'.rows.trans h.rows
  panels := h'.panels.trans h.panels
  boxes := h'.boxes.trans h.boxes
  grown := fun n hn => h'.grown n (h.grown n hn)
  still := by
    intro bars
    have first := h.still bars
    subst first
    exact h'.still bars

/-- What is handed out behind a part. -/
theorem Hands.cons {spare : ℕ} {ps : List Part} {r : ℕ × List Part} (h : Hands (spare, ps) r)
    (p : Part) : Hands (spare, p :: ps) (r.1, p :: r.2) where
  rows := by
    have rows := h.rows
    simp only [total_cons] at rows ⊢
    omega
  panels := congrArg (p.panel :: ·) h.panels
  boxes := congrArg (p.boxed :: ·) h.boxes
  grown := by
    intro n hn q hq
    cases List.mem_cons.mp hq with
    | inl here => exact here ▸ hn p List.mem_cons_self
    | inr there => exact h.grown n (fun q hq => hn q (List.mem_cons_of_mem _ hq)) q there
  still := by
    intro bars
    rw [h.still (List.forall_mem_cons.mp bars).2]

/-- A box takes rows. -/
theorem hands_take {spare take : ℕ} (le : take ≤ spare) {p : Part} (box : p.boxed = true)
    (ps : List Part) :
    Hands (spare, p :: ps) (spare - take, { p with h := p.h + take } :: ps) where
  rows := by
    simp only [total_cons]
    omega
  panels := rfl
  boxes := rfl
  grown := by
    intro n hn q hq
    cases List.mem_cons.mp hq with
    | inl here =>
        subst here
        exact Nat.le_add_right_of_le (hn p List.mem_cons_self)
    | inr there => exact hn q (List.mem_cons_of_mem _ there)
  still := by
    intro bars
    rw [(List.forall_mem_cons.mp bars).1] at box
    exact absurd box Bool.false_ne_true

theorem hands_growRound (spare : ℕ) (ps : List Part) : Hands (spare, ps) (growRound spare ps) := by
  induction ps generalizing spare with
  | nil => exact hands_refl _
  | cons p ps ih =>
      unfold growRound
      split
      case isTrue wants =>
        exact (hands_take wants.2.1 wants.1 ps).trans ((ih (spare - 1)).cons { p with h := p.h + 1 })
      case isFalse => exact (ih spare).cons p

theorem hands_grow (fuel : ℕ) (s : ℕ × List Part) : Hands s (grow fuel s) := by
  induction fuel generalizing s with
  | zero => exact hands_refl s
  | succ fuel ih =>
      unfold grow
      split
      · dsimp only
        split
        · exact (hands_growRound s.1 s.2).trans (ih _)
        · exact hands_growRound s.1 s.2
      · exact hands_refl s

theorem hands_give (p : Panel) (most : ℕ) (s : ℕ × List Part) : Hands s (give p most s) := by
  obtain ⟨spare, ps⟩ := s
  induction ps with
  | nil =>
      rw [give]
      exact hands_refl _
  | cons q qs ih =>
      unfold give
      split
      · split
        case isTrue box => exact hands_take (Nat.min_le_left spare most) box qs
        case isFalse => exact hands_refl _
      · exact ih.cons q

theorem hands_gives (wishes : List (Panel × ℕ)) (s : ℕ × List Part) :
    Hands s (wishes.foldl (fun s q => give q.1 q.2 s) s) := by
  induction wishes generalizing s with
  | nil => exact hands_refl s
  | cons q qs ih => exact (hands_give q.1 q.2 s).trans (ih _)

/-! ## Boxes -/

/-- What the first pass makes of bars: the rows that are used are those of the parts, and they fit
where the bars do. -/
theorem promote_spec (height used : ℕ) (ps : List Part) (ones : ∀ p ∈ ps, p.h = 1)
    (wide : ∀ p ∈ ps, 2 ≤ p.fewest) (counted : ps.length ≤ used) :
    let r := promote height used ps
    r.1 + ps.length = used + total r.2 ∧ r.2.map Part.panel = ps.map Part.panel ∧
      (∀ p ∈ r.2, 1 ≤ p.h) ∧ r.1 ≤ max used height := by
  induction ps generalizing used with
  | nil => simp [promote]
  | cons p ps ih =>
      rw [List.forall_mem_cons] at ones wide
      rw [List.length_cons] at counted
      unfold promote
      dsimp only
      split
      case isTrue fits =>
        obtain ⟨rows, panels, heights, fit⟩ :=
          ih (used - 1 + p.fewest) ones.2 wide.2 (by omega)
        refine ⟨?_, congrArg (p.panel :: ·) panels, ?_, fit.trans (by omega)⟩
        · simp only [total_cons, List.length_cons]
          omega
        · exact List.forall_mem_cons.mpr ⟨Nat.one_le_of_lt wide.1, heights⟩
      case isFalse =>
        obtain ⟨rows, panels, heights, fit⟩ := ih used ones.2 wide.2 (by omega)
        refine ⟨?_, congrArg (p.panel :: ·) panels, ?_, fit⟩
        · simp only [total_cons, List.length_cons, ones.1]
          omega
        · exact List.forall_mem_cons.mpr ⟨ones.1.ge, heights⟩

/-- Where the rows of one area are enough beside a bar for each other one, there is a box. -/
theorem promote_boxes (height used : ℕ) (ps : List Part) :
    (∃ q ∈ (promote height used ps).2, q.boxed = true) ∨
      ∀ p ∈ ps, height < used - 1 + p.fewest := by
  induction ps generalizing used with
  | nil => exact .inr (by simp)
  | cons p ps ih =>
      unfold promote
      split
      case isTrue => exact .inl ⟨_, List.mem_cons_self, rfl⟩
      case isFalse full =>
        cases ih used with
        | inl box =>
            obtain ⟨q, hq, boxed⟩ := box
            exact .inl ⟨q, List.mem_cons_of_mem _ hq, boxed⟩
        | inr none => exact .inr (List.forall_mem_cons.mpr ⟨Nat.lt_of_not_le full, none⟩)

/-- Where no area can be a box, all stay bars. -/
theorem promote_of_full (height used : ℕ) (ps : List Part)
    (full : ∀ p ∈ ps, height < used - 1 + p.fewest) : promote height used ps = (used, ps) := by
  induction ps with
  | nil => rfl
  | cons p ps ih =>
      rw [List.forall_mem_cons] at full
      unfold promote
      rw [if_neg (Nat.not_le_of_lt full.1), ih full.2]

/-! ## Rows that are left -/

theorem give_all {p : Panel} {s : ℕ × List Part} (box : boxedIn s.2 p = true) :
    (give p s.1 s).1 = 0 := by
  obtain ⟨spare, ps⟩ := s
  induction ps with
  | nil => simp [boxedIn] at box
  | cons q qs ih =>
      unfold give
      unfold boxedIn at box ih
      rw [List.find?_cons] at box
      split
      case isTrue here =>
        rw [decide_eq_true here] at box
        rw [if_pos (by simpa using box)]
        simp
      case isFalse elsewhere =>
        rw [decide_eq_false elsewhere] at box
        exact ih box

/-- A box of a stack that holds no area twice is found by its name. -/
theorem boxedIn_of_mem {parts : List Part} (distinct : (parts.map Part.panel).Nodup) {q : Part}
    (hq : q ∈ parts) (box : q.boxed = true) : boxedIn parts q.panel = true := by
  have found : parts.find? (fun r => decide (r.panel = q.panel)) = some q := by
    induction parts with
    | nil => exact absurd hq List.not_mem_nil
    | cons r rs ih =>
        rw [List.map_cons, List.nodup_cons] at distinct
        rw [List.find?_cons]
        cases List.mem_cons.mp hq with
        | inl here => simp [here]
        | inr there =>
            have other : r.panel ≠ q.panel := by
              intro same
              exact distinct.1 (List.mem_map.mpr ⟨q, there, same.symm⟩)
            rw [decide_eq_false other]
            exact ih distinct.2 there
  rw [boxedIn, found]
  exact box

/-- Where there is a box, some box takes what is left. -/
theorem taker_boxed (stretch : List (Panel × ℕ)) {parts : List Part}
    (distinct : (parts.map Part.panel).Nodup) (box : ∃ q ∈ parts, q.boxed = true) :
    ∃ p, taker stretch parts = some p ∧ boxedIn parts p = true := by
  unfold taker
  cases first : (stretch.map Prod.fst).find? (boxedIn parts) with
  | some p => exact ⟨p, rfl, List.find?_some first⟩
  | none =>
      obtain ⟨q, hq, boxed⟩ := box
      obtain ⟨last, hlast⟩ : ∃ r, parts.reverse.find? Part.boxed = some r :=
        Option.isSome_iff_exists.mp
          (List.find?_isSome.mpr ⟨q, List.mem_reverse.mpr hq, boxed⟩)
      rw [hlast]
      exact ⟨last.panel, rfl, boxedIn_of_mem distinct
        (List.mem_reverse.mp (List.mem_of_find?_eq_some hlast)) (List.find?_some hlast)⟩

/-- There is no room for a box beside a bar for each other area. -/
def Full (t : Content) (height iw : ℕ) (areas : List Panel) : Prop :=
  ∀ p ∈ areas, height < areas.length - 1 + ((rowsWanted t p iw).1 + 2)

/-- What is known of the heights of a stack: rows are only left where there is no room for a box, and
then all areas stay bars. -/
structure Handed (t : Content) (height iw : ℕ) (areas : List Panel) (s : ℕ × List Part) :
    Prop where
  rows : s.1 + total s.2 = max height areas.length
  panels : s.2.map Part.panel = areas
  heights : ∀ p ∈ s.2, 1 ≤ p.h
  filled : 0 < s.1 → Full t height iw areas
  full : Full t height iw areas → s = (height - areas.length, bars t iw areas)

theorem total_bars (t : Content) (iw : ℕ) (areas : List Panel) :
    total (bars t iw areas) = areas.length := by
  induction areas with
  | nil => rfl
  | cons p ps ih =>
      rw [bars, List.map_cons, total_cons, List.length_cons, ← ih, Nat.add_comm]
      rfl

theorem mem_bars {t : Content} {iw : ℕ} {areas : List Panel} {q : Part}
    (hq : q ∈ bars t iw areas) : q.h = 1 ∧ 2 ≤ q.fewest := by
  obtain ⟨p, -, rfl⟩ := List.mem_map.mp hq
  exact ⟨rfl, Nat.le_add_left 2 _⟩

/-- The heights of the boxes before the rest is handed out. -/
theorem handed_boxes (t : Content) (height iw : ℕ) (areas : List Panel) :
    let boxes := promote height areas.length (bars t iw areas)
    height - boxes.1 + total boxes.2 = max height areas.length ∧
      boxes.2.map Part.panel = areas ∧ (∀ p ∈ boxes.2, 1 ≤ p.h) ∧
      ((∃ q ∈ boxes.2, q.boxed = true) ∨ Full t height iw areas) ∧
      (Full t height iw areas → boxes = (areas.length, bars t iw areas)) := by
  intro boxes
  have length : (bars t iw areas).length = areas.length := List.length_map _
  have spec := promote_spec height areas.length (bars t iw areas) (fun p hp => (mem_bars hp).1)
    (fun p hp => (mem_bars hp).2) length.le
  dsimp only at spec
  obtain ⟨rows, panels, heights, fit⟩ := spec
  refine ⟨?_, panels.trans ?_, heights, ?_, ?_⟩
  · by_cases few : height < areas.length
    · have full := promote_of_full height areas.length (bars t iw areas) fun p hp => by
        have two := (mem_bars hp).2
        omega
      dsimp only [boxes]
      rw [full, total_bars]
      dsimp only
      omega
    · dsimp only [boxes]
      omega
  · rw [bars, List.map_map]
    exact List.map_id' _
  · exact (promote_boxes height areas.length (bars t iw areas)).imp id fun none p hp =>
      none _ (List.mem_map.mpr ⟨p, hp, rfl⟩)
  · intro full
    refine promote_of_full height areas.length (bars t iw areas) fun q hq => ?_
    obtain ⟨p, hp, rfl⟩ := List.mem_map.mp hq
    exact full p hp

theorem handed_heights (t : Content) (height iw : ℕ) {areas : List Panel}
    (distinct : areas.Nodup) (stretch : List (Panel × ℕ)) :
    Handed t height iw areas (heights t height iw areas stretch) := by
  obtain ⟨rows, panels, tall, boxes, stay⟩ := handed_boxes t height iw areas
  unfold heights
  dsimp only
  generalize promote height areas.length (bars t iw areas) = b at rows panels tall boxes stay ⊢
  have hands := ((hands_grow (height - b.1) (height - b.1, b.2)).trans
    (hands_gives stretch _)).trans
    (hands_gives [(.incidents, t.incidents - 8), (.alerts, t.alerts - 6)] _)
  generalize List.foldl _ (List.foldl _ _ _) _ = s at hands ⊢
  have kept : ∀ r, Hands s r → (0 < r.1 → ¬∃ q ∈ s.2, q.boxed = true) →
      Handed t height iw areas r := by
    intro r hr left
    have all := hands.trans hr
    exact {
      rows := all.rows.trans rows
      panels := all.panels.trans panels
      heights := all.grown 1 tall
      filled := by
        intro some p hp
        cases boxes with
        | inl box =>
            refine absurd ?_ (left some)
            have there : true ∈ s.2.map Part.boxed := by
              rw [hands.boxes]
              exact List.mem_map.mpr box
            exact List.mem_map.mp there
        | inr none => exact none p hp
      full := by
        intro full
        have start := stay full
        subst start
        refine all.still fun q hq => ?_
        obtain ⟨p, -, rfl⟩ := List.mem_map.mp hq
        rfl }
  split
  case isTrue rest =>
    cases found : taker stretch s.2 with
    | none =>
        refine kept s (hands_refl s) fun _ box => ?_
        obtain ⟨p, hp, -⟩ := taker_boxed stretch
          (by rw [hands.panels, panels]; exact distinct) box
        rw [found] at hp
        cases hp
    | some p =>
        refine kept _ (hands_give p s.1 s) fun left box => ?_
        obtain ⟨q, hq, boxed⟩ := taker_boxed stretch
          (by rw [hands.panels, panels]; exact distinct) box
        rw [found] at hq
        cases hq
        exact absurd (give_all boxed) (Nat.ne_of_gt left)
  case isFalse none => exact kept s (hands_refl s) fun left => absurd left none

theorem length_le_total {parts : List Part} (h : ∀ p ∈ parts, 1 ≤ p.h) :
    parts.length ≤ total parts := by
  induction parts with
  | nil => exact Nat.le_refl 0
  | cons p ps ih =>
      rw [List.forall_mem_cons] at h
      rw [total_cons, List.length_cons]
      have rest := ih h.2
      omega

/-- The rows of a stack are those of its height but for the ones that are left, also where it has
more areas than rows. -/
theorem Handed.fits {t : Content} {height iw : ℕ} {areas : List Panel} {s : ℕ × List Part}
    (h : Handed t height iw areas s) : min (total s.2) height = height - s.1 := by
  have rows := h.rows
  have least := length_le_total h.heights
  have length := congrArg List.length h.panels
  rw [List.length_map] at length
  omega

/-! ## Stacks on the screen -/

/-- Parts one under the other tile the rows that they have together. -/
theorem tiles_place (area : Rect) (y : ℕ) (parts : List Part) (le : y ≤ area.y + area.height) :
    Tiles { area with y := y, height := min (total parts) (area.y + area.height - y) }
      (rects (place area y parts)) := by
  induction parts generalizing y with
  | nil => exact tiles_nil (.inr (by simp))
  | cons p ps ih =>
      unfold place
      split
      case isTrue full => exact tiles_nil (.inr (by dsimp only; omega))
      case isFalse room =>
        have cut := cut_rows
          { area with y := y, height := min (total (p :: ps)) (area.y + area.height - y) }
          (h := min p.h (area.y + area.height - y)) (by rw [total_cons]; dsimp only; omega)
        have rest := ih (y + min p.h (area.y + area.height - y)) (by omega)
        have rows : min (total ps) (area.y + area.height - (y + min p.h (area.y + area.height - y))) =
            min (total (p :: ps)) (area.y + area.height - y) - min p.h (area.y + area.height - y) := by
          rw [total_cons]
          omega
        rw [rows] at rest
        have first : (if p.boxed = true then
            Slot.boxed { area with y := y, height := min p.h (area.y + area.height - y) }
          else Slot.bar { area with y := y, height := min p.h (area.y + area.height - y) }).rect =
            { area with y := y, height := min p.h (area.y + area.height - y) } := by
          split <;> rfl
        have both := cut.tiles (tiles_self _) rest
        rw [← first] at both
        exact both

/-- A stack tiles its area but for the rows that are left. -/
theorem tiles_stack (t : Content) (area : Rect) {areas : List Panel} (distinct : areas.Nodup)
    (stretch : List (Panel × ℕ)) :
    Tiles { area with
        height := area.height - (heights t area.height (area.width - 2) areas stretch).1 }
      (rects (stack t area areas stretch)) := by
  have handed := handed_heights t area.height (area.width - 2) distinct stretch
  have tiles := tiles_place area area.y
    (heights t area.height (area.width - 2) areas stretch).2 (Nat.le_add_right _ _)
  rw [Nat.add_sub_cancel_left, handed.fits] at tiles
  exact tiles

/-- A stack whose areas have a row each holds all of them, in their order. -/
theorem panels_place (area : Rect) (y : ℕ) (parts : List Part) (heights : ∀ p ∈ parts, 1 ≤ p.h)
    (fits : y + total parts ≤ area.y + area.height) :
    (place area y parts).map Prod.fst = parts.map Part.panel := by
  induction parts generalizing y with
  | nil => rfl
  | cons p ps ih =>
      rw [List.forall_mem_cons] at heights
      rw [total_cons] at fits
      unfold place
      rw [if_neg (by omega)]
      dsimp only
      rw [List.map_cons, List.map_cons, ih _ heights.2 (by omega)]

/-- Bars alone are shown as far as there are rows. -/
theorem panels_place_bars (area : Rect) (y : ℕ) (parts : List Part) (ones : ∀ p ∈ parts, p.h = 1) :
    (place area y parts).map Prod.fst =
      (parts.map Part.panel).take (area.y + area.height - y) := by
  induction parts generalizing y with
  | nil => rw [place, List.map_nil, List.map_nil, List.take_nil]
  | cons p ps ih =>
      rw [List.forall_mem_cons] at ones
      unfold place
      split
      case isTrue none =>
        rw [Nat.sub_eq_zero_of_le none, List.take_zero]
        rfl
      case isFalse room =>
        obtain ⟨n, hn⟩ : ∃ n, area.y + area.height - y = n + 1 :=
          Nat.exists_eq_succ_of_ne_zero (by omega)
        dsimp only
        rw [List.map_cons, ih _ ones.2, ones.1, hn, List.map_cons, List.take_succ_cons,
          show area.y + area.height - (y + min 1 (n + 1)) = n by omega]

theorem panels_stack_full (t : Content) (area : Rect) {areas : List Panel} (distinct : areas.Nodup)
    (stretch : List (Panel × ℕ)) (full : Full t area.height (area.width - 2) areas) :
    (stack t area areas stretch).map Prod.fst = areas.take area.height := by
  have handed := handed_heights t area.height (area.width - 2) distinct stretch
  unfold stack
  rw [handed.full full, panels_place_bars area area.y _ fun p hp => (mem_bars hp).1,
    Nat.add_sub_cancel_left, bars, List.map_map]
  congr 1
  exact List.map_id' _

theorem panels_stack (t : Content) (area : Rect) {areas : List Panel} (distinct : areas.Nodup)
    (stretch : List (Panel × ℕ)) (fits : areas.length ≤ area.height) :
    (stack t area areas stretch).map Prod.fst = areas := by
  have handed := handed_heights t area.height (area.width - 2) distinct stretch
  have rows := handed.rows
  exact (panels_place area area.y _ handed.heights (by omega)).trans handed.panels

end Lss.Analysis.OverviewStacks
