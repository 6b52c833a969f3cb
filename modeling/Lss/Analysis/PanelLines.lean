import Lss.Model.Charts

/-!
# The line of a panel

A panel draws its series as one line for each stretch of readings. In each column the line comes in
on the row it left the column before, goes up or down to the row of its own value, and leaves there.
-/

set_option autoImplicit false

namespace Lss.Analysis.PanelLines

open Lss.Model

/-! ## The sides of a glyph -/

def opensLeft (ch : Char) : Prop := ch = '─' ∨ ch = '╯' ∨ ch = '╮'

def opensRight (ch : Char) : Prop := ch = '─' ∨ ch = '╭' ∨ ch = '╰'

def opensUp (ch : Char) : Prop := ch = '│' ∨ ch = '╯' ∨ ch = '╰'

def opensDown (ch : Char) : Prop := ch = '│' ∨ ch = '╭' ∨ ch = '╮'

instance : DecidablePred opensLeft := fun _ => inferInstanceAs (Decidable (_ ∨ _ ∨ _))

instance : DecidablePred opensRight := fun _ => inferInstanceAs (Decidable (_ ∨ _ ∨ _))

instance : DecidablePred opensUp := fun _ => inferInstanceAs (Decidable (_ ∨ _ ∨ _))

instance : DecidablePred opensDown := fun _ => inferInstanceAs (Decidable (_ ∨ _ ∨ _))

/-! ## One column -/

/-- What stands in a row of a column, when the line comes in on one row and leaves on another. -/
def strokeAt (entry exit r : ℕ) : Char :=
  if entry = exit then if r = exit then '─' else ' '
  else if min entry exit < r ∧ r < max entry exit then '│'
  else if r = entry then if exit < entry then '╯' else '╮'
  else if r = exit then if exit < entry then '╭' else '╰'
  else ' '

section Column

variable (entry exit r : ℕ)

/-- The kinds of rows of a column. -/
theorem strokeAt_cases :
    (entry = exit ∧ r = exit) ∧ strokeAt entry exit r = '─' ∨
      (min entry exit < r ∧ r < max entry exit) ∧ strokeAt entry exit r = '│' ∨
      (r = entry ∧ exit < entry) ∧ strokeAt entry exit r = '╯' ∨
      (r = entry ∧ entry < exit) ∧ strokeAt entry exit r = '╮' ∨
      (r = exit ∧ exit < entry) ∧ strokeAt entry exit r = '╭' ∨
      (r = exit ∧ entry < exit) ∧ strokeAt entry exit r = '╰' ∨
      (r < min entry exit ∨ max entry exit < r) ∧ strokeAt entry exit r = ' ' := by
  unfold strokeAt
  split_ifs <;> simp <;> omega

theorem opensLeft_strokeAt : opensLeft (strokeAt entry exit r) ↔ r = entry := by
  rcases strokeAt_cases entry exit r with h | h | h | h | h | h | h <;> rw [h.2] <;>
    simp [opensLeft] <;> omega

theorem opensRight_strokeAt : opensRight (strokeAt entry exit r) ↔ r = exit := by
  rcases strokeAt_cases entry exit r with h | h | h | h | h | h | h <;> rw [h.2] <;>
    simp [opensRight] <;> omega

theorem opensUp_strokeAt :
    opensUp (strokeAt entry exit r) ↔ min entry exit < r ∧ r ≤ max entry exit := by
  rcases strokeAt_cases entry exit r with h | h | h | h | h | h | h <;> rw [h.2] <;>
    simp [opensUp] <;> omega

theorem opensDown_strokeAt :
    opensDown (strokeAt entry exit r) ↔ min entry exit ≤ r ∧ r < max entry exit := by
  rcases strokeAt_cases entry exit r with h | h | h | h | h | h | h <;> rw [h.2] <;>
    simp [opensDown] <;> omega

theorem strokeAt_eq_blank :
    strokeAt entry exit r = ' ' ↔ r < min entry exit ∨ max entry exit < r := by
  rcases strokeAt_cases entry exit r with h | h | h | h | h | h | h <;> rw [h.2] <;>
    simp <;> omega

end Column

theorem mem_between {a b r : ℕ} : r ∈ List.range' (a + 1) (b - (a + 1)) ↔ a < r ∧ r < b := by
  rw [List.mem_range'_1]
  omega

/-- A column is drawn without a mark on any other. -/
theorem drawColumn_of_ne (grid : Grid) (prev : Option (ℕ × ℕ)) {col c : ℕ} (row r : ℕ)
    (other : c ≠ col) : drawColumn grid prev col row r c = grid r c := by
  cases prev with
  | none => simp [drawColumn, Grid.put_apply, other]
  | some p =>
      simp only [drawColumn]
      split_ifs <;> simp [Grid.put_apply, Grid.putRows_apply, other]

/-- A column is drawn from the row the line came in, when it came in. -/
theorem drawColumn_self (grid : Grid) (prev : Option (ℕ × ℕ)) (col row r : ℕ)
    (fresh : grid r col = none) :
    (drawColumn grid prev col row r col).getD ' ' =
      strokeAt ((prev.map Prod.snd).getD row) row r := by
  cases prev with
  | none => by_cases hr : r = row <;> simp [drawColumn, Grid.put_apply, strokeAt, hr, fresh]
  | some p =>
      obtain ⟨pcol, prow⟩ := p
      simp only [drawColumn, Option.map_some, Option.getD_some]
      rcases lt_trichotomy row prow with up | rfl | down
      · rw [if_neg up.ne', if_pos up, strokeAt, if_neg up.ne', min_eq_right up.le,
          max_eq_left up.le]
        simp only [Grid.putRows_apply, Grid.put_apply, mem_between, and_true, if_pos up, fresh]
        split_ifs <;> first | rfl | omega
      · by_cases hr : r = row <;> simp [Grid.put_apply, strokeAt, hr, fresh]
      · rw [if_neg down.ne, if_neg down.not_gt, strokeAt, if_neg down.ne, min_eq_left down.le,
          max_eq_right down.le]
        simp only [Grid.putRows_apply, Grid.put_apply, mem_between, and_true, if_neg down.not_gt,
          fresh]
        split_ifs <;> first | rfl | omega

/-! ## A whole panel -/

section Panel

variable (row : Ieee → ℕ) (data : List (Option Ieee))

/-- The value a column has, when it is a real one. -/
def reading (c : ℕ) : Option Ieee := (data[c]?.join).filter Ieee.isFinite

/-- The row the line comes in on: the one it left the column before, if there is a value there. -/
def entryRow (c : ℕ) (v : Ieee) : ℕ :=
  match c with
  | 0 => row v
  | c + 1 => ((reading data c).map row).getD (row v)

/-- What the panel shows in a row and a column. -/
def shown (r c : ℕ) : Char :=
  match reading data c with
  | none => ' '
  | some v => strokeAt (entryRow row data c v) (row v) r

theorem reading_concat (point : Option Ieee) (c : ℕ) :
    reading (data ++ [point]) c =
      if c = data.length then point.filter Ieee.isFinite else reading data c := by
  unfold reading
  by_cases here : c = data.length
  · simp [here]
  · rw [if_neg here]
    by_cases old : c < data.length
    · rw [List.getElem?_append_left old]
    · rw [List.getElem?_eq_none (by simp; omega), List.getElem?_eq_none (by omega)]

theorem reading_length : reading data data.length = none := by
  simp [reading]

/-- The point that the line comes from, behind the points drawn so far. -/
def lastRow : ℕ → Option (ℕ × ℕ)
  | 0 => none
  | c + 1 => (reading data c).map fun v => (c, row v)

theorem entryRow_eq (v : Ieee) (c : ℕ) :
    entryRow row data c v = ((lastRow row data c).map Prod.snd).getD (row v) := by
  cases c with
  | zero => rfl
  | succ c =>
      rw [entryRow, lastRow, Option.map_map]
      rfl

/-- What is drawn later does not come into the columns before. -/
theorem lastRow_concat (point : Option Ieee) {c : ℕ} (h : c ≤ data.length) :
    lastRow row (data ++ [point]) c = lastRow row data c := by
  cases c with
  | zero => rfl
  | succ c => rw [lastRow, lastRow, reading_concat, if_neg (by omega)]

theorem shown_concat (point : Option Ieee) (r : ℕ) {c : ℕ} (h : c ≠ data.length) :
    shown row (data ++ [point]) r c = shown row data r c := by
  unfold shown
  rw [reading_concat, if_neg h]
  cases hv : reading data c with
  | none => rfl
  | some v =>
      have old : c < data.length := by
        by_contra beyond
        simp [reading, List.getElem?_eq_none (not_lt.mp beyond)] at hv
      simp only [entryRow_eq, lastRow_concat row data point old.le]

/-- Column by column the line is drawn from one row to the next. -/
theorem foldl_drawStep :
    let drawn := data.zipIdx.foldl (drawStep row) (fun _ _ => none, none)
    (∀ r c, (drawn.1 r c).getD ' ' = shown row data r c) ∧
      (∀ r c, data.length ≤ c → drawn.1 r c = none) ∧
      drawn.2 = lastRow row data data.length := by
  induction data using List.reverseRecOn with
  | nil =>
      refine ⟨fun r c => ?_, fun _ _ _ => rfl, rfl⟩
      simp [shown, reading]
  | append_singleton data point ih =>
      obtain ⟨cells, blank, last⟩ := ih
      have here := reading_concat data point data.length
      rw [if_pos rfl] at here
      rw [List.zipIdx_append, List.foldl_append]
      generalize data.zipIdx.foldl (drawStep row) (fun _ _ => none, none) = drawn at cells blank last
      simp only [Nat.zero_add, List.zipIdx_cons, List.zipIdx_nil, List.foldl_cons, List.foldl_nil,
        drawStep, List.length_append, List.length_singleton]
      cases hv : point.filter Ieee.isFinite with
      | none =>
          refine ⟨fun r c => ?_, fun r c hc => blank r c (by omega), ?_⟩
          · rw [cells]
            by_cases hc : c = data.length
            · simp [shown, hc, here, hv, reading_length]
            · exact (shown_concat row data point r hc).symm
          · rw [lastRow, here, hv]
            rfl
      | some v =>
          dsimp only
          refine ⟨fun r c => ?_, fun r c hc => ?_, ?_⟩
          · by_cases hc : c = data.length
            · rw [hc, drawColumn_self _ _ _ _ _ (blank r _ le_rfl), shown, here, hv]
              simp only [entryRow_eq, last, lastRow_concat row data point le_rfl]
            · rw [drawColumn_of_ne _ _ _ _ hc, cells, shown_concat row data point r hc]
          · rw [drawColumn_of_ne _ _ _ _ (by omega)]
            exact blank r c (by omega)
          · rw [lastRow, here, hv]
            rfl

/-- What a panel shows is told by the values of its columns. -/
theorem panelGrid_eq (r c : ℕ) : (panelGrid row data r c).getD ' ' = shown row data r c :=
  (foldl_drawStep row data).1 r c

end Panel

/-! ## Every place is on the panel -/

/-- A number kept between zero and one is between zero and one, or no number. -/
theorem clampUnit_cases (v : Ieee) :
    (∃ q : ℚ, 0 ≤ q ∧ q ≤ 1 ∧ v.clampUnit = .finite q) ∨ ∃ s, v.clampUnit = .nan s := by
  cases v with
  | finite q =>
      left
      rw [Ieee.clampUnit, Ieee.lt_finite, Ieee.lt_finite]
      by_cases low : q < 0
      · exact ⟨0, le_rfl, zero_le_one, by simp [low]⟩
      · by_cases high : 1 < q
        · exact ⟨1, zero_le_one, le_rfl, by simp [low, high]⟩
        · exact ⟨q, not_lt.mp low, not_lt.mp high, by simp [low, high]⟩
  | infinite s =>
      left
      cases s with
      | false => exact ⟨1, zero_le_one, le_rfl, rfl⟩
      | true => exact ⟨0, le_rfl, zero_le_one, rfl⟩
  | nan s => exact Or.inr ⟨s, rfl⟩

/-- What is too great for a double is greater than every unsigned integer. -/
theorem lt_of_ofRat_infinite {n : ℕ} {v : ℚ} (high : v ≤ n) (great : (2 : ℚ) ^ 1024 - 2 ^ 970 ≤ v) :
    2 ^ 64 - 1 ≤ n := by
  have least : (2 : ℚ) ^ 64 ≤ 2 ^ 970 := pow_le_pow_right₀ (by norm_num) (by omega)
  have twice : (2 : ℚ) ^ 970 * 2 ≤ 2 ^ 1024 := by
    rw [← pow_succ]
    exact pow_le_pow_right₀ (by norm_num) (by omega)
  have bound : (2 : ℚ) ^ 64 ≤ n := by
    generalize (2 : ℚ) ^ 970 = p at *
    generalize (2 : ℚ) ^ 1024 = q at *
    linarith
  have : 2 ^ 64 ≤ n := by exact_mod_cast bound
  omega

theorem asUsize_ofRat_le {v : ℚ} {n : ℕ} (low : 0 ≤ v) (high : v ≤ n) :
    (Ieee.ofRat v).round.asUsize ≤ n := by
  unfold Ieee.ofRat
  split
  case isTrue great =>
    rw [abs_of_nonneg low] at great
    have bound := lt_of_ofRat_infinite high great
    simp only [not_lt.mpr low, decide_false, Ieee.round, Ieee.asUsize, Bool.false_eq_true, if_false]
    exact bound
  case isFalse =>
    have whole := roundHalfAway_le low (show v ≤ (n : ℤ) by exact_mod_cast high)
    simp only [Ieee.round, Ieee.asUsize, Int.floor_intCast]
    exact (Nat.min_le_left _ _).trans (Int.toNat_le.mpr whole)

theorem asUsize_mul_le {q : ℚ} (low : 0 ≤ q) (high : q ≤ 1) (n : ℕ) :
    (Ieee.finite q * F64.ofNat n).round.asUsize ≤ n := by
  change (Ieee.mul (.finite q) (Ieee.ofRat n)).round.asUsize ≤ n
  have hn : (0 : ℚ) ≤ n := n.cast_nonneg
  unfold Ieee.ofRat
  split
  case isTrue great =>
    rw [abs_of_nonneg hn] at great
    have bound := lt_of_ofRat_infinite le_rfl great
    by_cases zero : q = 0
    · simp [Ieee.mul, zero, Ieee.round, Ieee.asUsize]
    · simp only [Ieee.mul, not_lt.mpr hn, not_lt.mpr low, zero, Ieee.finite.injEq, reduceCtorEq,
        or_self, if_false, Ieee.negative, decide_false, bne_self_eq_false, Ieee.round, Ieee.asUsize,
        Bool.false_eq_true]
      exact bound
  case isFalse =>
    exact asUsize_ofRat_le (mul_nonneg low hn) (mul_le_of_le_one_left hn high)

theorem asUsize_rest_le (v : Ieee) (n : ℕ) :
    ((Ieee.finite 1 - v.clampUnit) * F64.ofNat n).round.asUsize ≤ n := by
  rcases clampUnit_cases v with ⟨q, low, high, hq⟩ | ⟨s, hs⟩
  · have rest : Ieee.finite 1 - Ieee.finite q = .finite (1 - q) := by
      change Ieee.ofRat (1 + -q) = _
      rw [Ieee.ofRat_of_small (by rw [abs_lt]; constructor <;> linarith), sub_eq_add_neg]
    rw [hq, rest]
    exact asUsize_mul_le (by linarith) (by linarith) n
  · rw [hs]
    exact Nat.zero_le n

/-- Whatever the scale is, a value has its row on the panel. -/
theorem rowOf_lt (scale : Ieee × Ieee) {h : ℕ} (tall : 0 < h) (v : Ieee) : rowOf scale h v < h := by
  have bound := asUsize_rest_le
    ((v - scale.1) / F64.max (scale.2 - scale.1) (F64.lit (1 / 10 ^ 9))) (h - 1)
  exact Nat.lt_of_le_of_lt bound (by omega)

/-! ## The whole picture -/

/-- What stands in a row and a column of a panel. -/
def glyphAt {κ : Type} (rows : List (List (Span κ))) (r c : ℕ) : Char :=
  (((rows[r]?).bind List.getLast?).bind fun s => s.text.toList[c]?).getD ' '

/-- A picture of so many rows and columns that is one line for each stretch of columns with a
value. -/
structure Unbroken (w h : ℕ) (present : ℕ → Prop) (glyph : ℕ → ℕ → Char) : Prop where
  blank : ∀ c < w, (∀ r < h, glyph r c = ' ') ↔ ¬ present c
  /-- two neighbours meet in one row, and in no other one is either open to the other -/
  meets : ∀ c, c + 1 < w → present c → present (c + 1) →
    ∃ q < h, ∀ r < h, (opensRight (glyph r c) ↔ r = q) ∧ (opensLeft (glyph r (c + 1)) ↔ r = q)
  /-- from the row it comes in to the row it leaves a column is filled, row joined to row -/
  filled : ∀ c < w, present c → ∃ entry < h, ∃ exit < h, ∀ r < h,
    (opensLeft (glyph r c) ↔ r = entry) ∧ (opensRight (glyph r c) ↔ r = exit) ∧
      (glyph r c ≠ ' ' ↔ min entry exit ≤ r ∧ r ≤ max entry exit) ∧
      (opensDown (glyph r c) ↔ min entry exit ≤ r ∧ r < max entry exit) ∧
      (opensUp (glyph r c) ↔ min entry exit < r ∧ r ≤ max entry exit)
  /-- an open side meets one of the neighbour's, but to the left of the first column of a stretch
  and to the right of its last -/
  closed : ∀ r < h, ∀ c < w,
    (opensLeft (glyph r c) → 0 < c → present (c - 1) → opensRight (glyph r (c - 1))) ∧
      (opensRight (glyph r c) → c + 1 < w → present (c + 1) → opensLeft (glyph r (c + 1))) ∧
      (opensUp (glyph r c) → 0 < r ∧ opensDown (glyph (r - 1) c)) ∧
      (opensDown (glyph r c) → r + 1 < h ∧ opensUp (glyph (r + 1) c))

/-- A column has a value when what is left of its points is one, and a finite one. -/
def Present (data : List (Option Ieee)) (c : ℕ) : Prop :=
  ∃ v, data[c]? = some (some v) ∧ v.isFinite

theorem present_iff (data : List (Option Ieee)) (c : ℕ) :
    Present data c ↔ ∃ v, reading data c = some v := by
  unfold Present reading
  cases hp : data[c]? with
  | none => simp
  | some point => cases point <;> simp [Option.filter]

section Shown

variable {row : Ieee → ℕ} {data : List (Option Ieee)}

theorem shown_of_reading {c : ℕ} {v : Ieee} (h : reading data c = some v) (r : ℕ) :
    shown row data r c = strokeAt (entryRow row data c v) (row v) r := by
  rw [shown, h]

theorem shown_of_none {c : ℕ} (h : reading data c = none) (r : ℕ) : shown row data r c = ' ' := by
  rw [shown, h]

/-- The line comes in where it left. -/
theorem entryRow_of_reading {c : ℕ} {u v : Ieee} (hu : reading data c = some u) :
    entryRow row data (c + 1) v = row u := by
  rw [entryRow, hu]
  rfl

theorem entryRow_lt {h : ℕ} (inside : ∀ v, row v < h) (c : ℕ) (v : Ieee) :
    entryRow row data c v < h := by
  cases c with
  | zero => exact inside v
  | succ c =>
      rw [entryRow]
      cases reading data c with
      | none => exact inside v
      | some u => exact inside u

theorem not_open_blank : ¬ opensLeft ' ' ∧ ¬ opensRight ' ' ∧ ¬ opensUp ' ' ∧ ¬ opensDown ' ' := by
  decide

/-- Whatever the readings are, what is shown is one line for each stretch of them. -/
theorem unbroken_shown (w : ℕ) {h : ℕ} (inside : ∀ v, row v < h) :
    Unbroken w h (Present data) (shown row data) where
  blank := by
    intro c _
    rw [present_iff]
    constructor
    · rintro blank ⟨v, hv⟩
      have stroke := blank (row v) (inside v)
      rw [shown_of_reading hv, strokeAt_eq_blank] at stroke
      omega
    · intro absent r _
      exact shown_of_none (Option.eq_none_iff_forall_ne_some.mpr fun v hv => absent ⟨v, hv⟩) r
  meets := by
    intro c _ here next
    obtain ⟨u, hu⟩ := (present_iff data c).mp here
    obtain ⟨v, hv⟩ := (present_iff data (c + 1)).mp next
    refine ⟨row u, inside u, fun r _ => ⟨?_, ?_⟩⟩
    · rw [shown_of_reading hu, opensRight_strokeAt]
    · rw [shown_of_reading hv, opensLeft_strokeAt, entryRow_of_reading hu]
  filled := by
    intro c _ here
    obtain ⟨v, hv⟩ := (present_iff data c).mp here
    refine ⟨entryRow row data c v, entryRow_lt inside c v, row v, inside v, fun r _ => ?_⟩
    rw [shown_of_reading hv, opensLeft_strokeAt, opensRight_strokeAt, opensDown_strokeAt,
      opensUp_strokeAt, ne_eq, strokeAt_eq_blank]
    refine ⟨Iff.rfl, Iff.rfl, ?_, Iff.rfl, Iff.rfl⟩
    omega
  closed := by
    intro r hr c _
    obtain ⟨noLeft, noRight, noUp, noDown⟩ := not_open_blank
    cases hv : reading data c with
    | none =>
        rw [shown_of_none hv]
        exact ⟨fun h => absurd h noLeft, fun h => absurd h noRight, fun h => absurd h noUp,
          fun h => absurd h noDown⟩
    | some v =>
        have entry : entryRow row data c v < h := entryRow_lt inside c v
        have exit := inside v
        rw [shown_of_reading hv, shown_of_reading hv, shown_of_reading hv, opensLeft_strokeAt,
          opensRight_strokeAt, opensUp_strokeAt, opensUp_strokeAt, opensDown_strokeAt,
          opensDown_strokeAt]
        refine ⟨?_, ?_, ?_, ?_⟩
        · intro leftOpen notFirst before
          obtain ⟨u, hu⟩ := (present_iff data (c - 1)).mp before
          rw [shown_of_reading hu, opensRight_strokeAt, leftOpen]
          rw [← Nat.sub_add_cancel notFirst]
          exact entryRow_of_reading hu
        · intro rightOpen _ next
          obtain ⟨u, hu⟩ := (present_iff data (c + 1)).mp next
          rw [shown_of_reading hu, opensLeft_strokeAt, entryRow_of_reading hv, rightOpen]
        · omega
        · omega

/-- Nothing is shown outside the panel. -/
theorem shown_outside {w h : ℕ} (inside : ∀ v, row v < h) (few : data.length ≤ w) {r c : ℕ}
    (outside : h ≤ r ∨ w ≤ c) : shown row data r c = ' ' := by
  cases hv : reading data c with
  | none => exact shown_of_none hv r
  | some v =>
      have there : c < data.length := by
        by_contra beyond
        simp [reading, List.getElem?_eq_none (not_lt.mp beyond)] at hv
      have entry : entryRow row data c v < h := entryRow_lt inside c v
      have exit := inside v
      rw [shown_of_reading hv, strokeAt_eq_blank]
      omega

end Shown

section Rows

variable {κ : Type} (s : ChartSeries κ) (w h : ℕ) (scale : Ieee × Ieee) (opts : ChartOpts κ)
  (gutter : ℕ) (labels : String × String × String)

/-- The line of text in a row of the panel. -/
def rowText (grid : Grid) (r : ℕ) : String :=
  String.ofList ((List.range w).map fun c => (grid r c).getD ' ')

/-- The panel's rows end in the texts of its grid. -/
theorem panelRows_eq (wide : 0 < w) (tall : 0 < h) :
    ∃ before : ℕ → List (Span κ), panelRows s w h scale opts gutter labels =
      (List.range h).map fun r => before r ++ [⟨rowText w (panelGrid
        (rowOf (if s.ownScale then ownBounds s.data else scale) h) (resample opts s.data w)) r,
          some s.colour⟩] := by
  rw [panelRows, if_neg (by omega)]
  exact ⟨_, rfl⟩

theorem glyphAt_rows (before : ℕ → List (Span κ)) (grid : Grid) (colour : Option κ) (r c : ℕ) :
    glyphAt ((List.range h).map fun r => before r ++ [⟨rowText w grid r, colour⟩]) r c =
      if r < h ∧ c < w then (grid r c).getD ' ' else ' ' := by
  unfold glyphAt rowText
  by_cases hr : r < h
  · by_cases hc : c < w <;> simp [hr, hc]
  · simp [hr]

end Rows

/-- The panel that is drawn shows one line for each stretch of readings, in so many rows and
columns, and nothing of it is drawn outside. -/
theorem panelRows_unbroken {κ : Type} (s : ChartSeries κ) (w h : ℕ) (scale : Ieee × Ieee)
    (opts : ChartOpts κ) (gutter : ℕ) (labels : String × String × String) (wide : 0 < w)
    (tall : 0 < h) :
    let rows := panelRows s w h scale opts gutter labels
    Unbroken w h (Present (resample opts s.data w)) (glyphAt rows) ∧
      rows.length = h ∧ (∀ row ∈ rows, ∃ line, row.getLast? = some line ∧ line.text.length = w) ∧
      (resample opts s.data w).length ≤ w := by
  obtain ⟨before, hrows⟩ := panelRows_eq s w h scale opts gutter labels wide tall
  have few : (resample opts s.data w).length ≤ w :=
    (length_resample opts wide).trans_le (Nat.min_le_right _ _)
  generalize hscale : (if s.ownScale then ownBounds s.data else scale) = own at hrows
  have inside : ∀ v, rowOf own h v < h := rowOf_lt own tall
  have picture : glyphAt (panelRows s w h scale opts gutter labels) =
      shown (rowOf own h) (resample opts s.data w) := by
    funext r c
    rw [hrows, glyphAt_rows, panelGrid_eq]
    by_cases there : r < h ∧ c < w
    · rw [if_pos there]
    · rw [if_neg there, shown_outside inside few (by omega)]
  refine ⟨?_, ?_, ?_, few⟩
  · rw [picture]
    exact unbroken_shown w inside
  · simp [hrows]
  · intro row hrow
    rw [hrows, List.mem_map] at hrow
    obtain ⟨r, -, rfl⟩ := hrow
    exact ⟨_, List.getLast?_concat, by simp [rowText]⟩

/-- A series that falls, is gone for a while, and comes back. -/
def fallingSeries : ChartSeries Unit :=
  { label := "tok/s", colour := (), data := [some (.finite 2), some (.finite 0), none,
      some (.finite 1)] }

def plainOpts : ChartOpts Unit := { fmt := fun _ => "", xLeft := "-1h" }

theorem panelRows_unbroken_falling :
    0 < 4 ∧ 0 < 3 ∧
      Unbroken 4 3 (Present (resample plainOpts fallingSeries.data 4))
        (glyphAt (panelRows fallingSeries 4 3 (.finite 0, .finite 2) plainOpts 0 ("", "", ""))) :=
  ⟨by omega, by omega, (panelRows_unbroken fallingSeries 4 3 (.finite 0, .finite 2) plainOpts 0
    ("", "", "") (by omega) (by omega)).1⟩

example : (panelRows fallingSeries 4 3 (.finite 0, .finite 2) plainOpts 0 ("", "", "")).map
    (·.map Span.text) = [["─╮  "], [" │ ─"], [" ╰  "]] := by
  decide +kernel

end Lss.Analysis.PanelLines
