import Mathlib.Data.List.ReduceOption
import Mathlib.Tactic.Ring
import Lss.Model.Charts

/-!
# Where a point stands in time

A chart is a line or it is dots, and one time axis stands under both. The dots are spread over the
whole axis. The line is squeezed where there are more points than columns, but it is not stretched
where there are fewer.
-/

set_option autoImplicit false

namespace Lss.Analysis.TimeColumns

open Lss.Model

/-! ## The column of a point -/

/-- The column that a point goes to: its own where there is room for all of them, and else the one
whose slice it is in. -/
def columnOf (n width i : ℕ) : ℕ :=
  if n ≤ width then i
  else (List.range width).findIdx fun c =>
    decide ((sliceOf n width c).1 ≤ i ∧ i < (sliceOf n width c).2)

section Slices

variable {n width c i : ℕ}

/-- With more points than columns the slices stand side by side. -/
theorem sliceOf_eq (many : width < n) (hc : c < width) :
    sliceOf n width c = (c * n / width, (c + 1) * n / width) := by
  have wide : 0 < width := by omega
  have grows : c * n / width + 1 ≤ (c + 1) * n / width := by
    rw [Nat.le_div_iff_mul_le wide, Nat.add_mul, Nat.add_mul]
    have := Nat.div_mul_le_self (c * n) width
    omega
  have ends : (c + 1) * n / width ≤ n := by
    rw [Nat.div_le_iff_le_mul_add_pred wide]
    nlinarith
  simp only [sliceOf, max_eq_left grows, min_eq_left ends]

theorem mem_slice_iff (many : width < n) (hc : c < width) :
    (sliceOf n width c).1 ≤ i ∧ i < (sliceOf n width c).2 ↔
      c * n < (i + 1) * width ∧ (i + 1) * width ≤ (c + 1) * n := by
  have wide : 0 < width := by omega
  have low : c * n / width ≤ i ↔ c * n < (i + 1) * width := by
    rw [← Nat.div_lt_iff_lt_mul wide]
    omega
  have high : i < (c + 1) * n / width ↔ (i + 1) * width ≤ (c + 1) * n := by
    rw [← Nat.le_div_iff_mul_le wide]
    omega
  rw [sliceOf_eq many hc, low, high]

/-- Every point is in one of the slices. -/
theorem exists_slice (wide : 0 < width) (hi : i < n) :
    ∃ c < width, c * n < (i + 1) * width ∧ (i + 1) * width ≤ (c + 1) * n := by
  have room : 0 < (i + 1) * width := by positivity
  have short : (i + 1) * width ≤ n * width := Nat.mul_le_mul_right width hi
  have reached := Nat.div_mul_le_self ((i + 1) * width - 1) n
  have above := Nat.lt_div_mul_add (a := (i + 1) * width - 1) (show 0 < n by omega)
  refine ⟨((i + 1) * width - 1) / n, ?_, by omega, ?_⟩
  · rw [Nat.div_lt_iff_lt_mul (by omega), Nat.mul_comm width]
    omega
  · rw [Nat.add_mul _ 1 n]
    omega

theorem columnOf_spec (many : width < n) (wide : 0 < width) (hi : i < n) :
    columnOf n width i < width ∧
      columnOf n width i * n < (i + 1) * width ∧
        (i + 1) * width ≤ (columnOf n width i + 1) * n := by
  obtain ⟨c, hc, inside⟩ := exists_slice wide hi
  have found : (List.range width).findIdx (fun c =>
      decide ((sliceOf n width c).1 ≤ i ∧ i < (sliceOf n width c).2)) <
        (List.range width).length :=
    List.findIdx_lt_length_of_exists
      ⟨c, List.mem_range.mpr hc, decide_eq_true ((mem_slice_iff many hc).mpr inside)⟩
  have holds := List.findIdx_getElem (w := found)
  rw [List.getElem_range, decide_eq_true_iff] at holds
  rw [List.length_range] at found
  rw [columnOf, if_neg (by omega)]
  exact ⟨found, (mem_slice_iff many found).mp holds⟩

/-- The slice that a point is in is the only one. -/
theorem columnOf_eq_iff (many : width < n) (hi : i < n) (hc : c < width) :
    columnOf n width i = c ↔ (sliceOf n width c).1 ≤ i ∧ i < (sliceOf n width c).2 := by
  obtain ⟨-, low, high⟩ := columnOf_spec many (by omega) hi
  rw [mem_slice_iff many hc]
  constructor
  · rintro rfl
    exact ⟨low, high⟩
  · rintro ⟨low', high'⟩
    have below : columnOf n width i < c + 1 :=
      Nat.lt_of_mul_lt_mul_right (low.trans_le high')
    have above : c < columnOf n width i + 1 :=
      Nat.lt_of_mul_lt_mul_right (low'.trans_le high)
    omega

end Slices

/-! ## What is left of a series -/

/-- A place in a list has a value. -/
def HasValue (data : List (Option Ieee)) (i : ℕ) : Prop := ∃ v, data[i]? = some (some v)

theorem mem_sliceValues (data : List (Option Ieee)) (width c : ℕ) (v : Ieee) :
    v ∈ sliceValues data width c ↔
      ∃ i, data[i]? = some (some v) ∧ (sliceOf data.length width c).1 ≤ i ∧
        i < (sliceOf data.length width c).2 := by
  rw [sliceValues]
  rcases sliceOf data.length width c with ⟨a, b⟩
  rw [List.reduceOption_mem_iff, List.mem_iff_getElem?]
  simp only [List.getElem?_drop, List.getElem?_take]
  constructor
  · rintro ⟨k, hk⟩
    by_cases short : a + k < b
    · rw [if_pos short] at hk
      exact ⟨a + k, hk, by omega, short⟩
    · rw [if_neg short] at hk
      cases hk
  · rintro ⟨i, hv, low, high⟩
    refine ⟨i - a, ?_⟩
    rw [Nat.add_sub_cancel' low, if_pos high, hv]

theorem sliceValues_ne_nil_iff (data : List (Option Ieee)) (width c : ℕ) :
    sliceValues data width c ≠ [] ↔
      ∃ i, HasValue data i ∧ (sliceOf data.length width c).1 ≤ i ∧
        i < (sliceOf data.length width c).2 := by
  constructor
  · intro some
    obtain ⟨v, hv⟩ := List.exists_mem_of_ne_nil _ some
    obtain ⟨i, hi, inside⟩ := (mem_sliceValues data width c v).mp hv
    exact ⟨i, ⟨v, hi⟩, inside⟩
  · rintro ⟨i, ⟨v, hi⟩, inside⟩
    exact List.ne_nil_of_mem ((mem_sliceValues data width c v).mpr ⟨i, hi, inside⟩)

/-- The highest of some values is one of them when there are any. -/
theorem isSome_foldl_max (values : List Ieee) (m : Option Ieee) :
    (values.foldl (fun m v => some (m.elim v fun x => F64.max x v)) m).isSome ↔
      m.isSome ∨ values ≠ [] := by
  induction values generalizing m with
  | nil => simp
  | cons v values ih =>
      rw [List.foldl_cons, ih]
      simp

/-- Where the points are squeezed, a column has a value when one of its points has. -/
theorem hasValue_squeezed {data : List (Option Ieee)} {width : ℕ} {column : ℕ → Option Ieee}
    (wide : 0 < width) (many : width < data.length)
    (kept : ∀ c, (column c).isSome ↔ sliceValues data width c ≠ []) (c : ℕ) :
    HasValue ((List.range width).map column) c ↔
      ∃ i, HasValue data i ∧ columnOf data.length width i = c := by
  have inside : ∀ i, HasValue data i → i < data.length := by
    rintro i ⟨v, hv⟩
    exact (List.getElem?_eq_some_iff.mp hv).1
  by_cases hc : c < width
  · have here : HasValue ((List.range width).map column) c ↔ (column c).isSome := by
      simp [HasValue, hc, Option.isSome_iff_exists]
    rw [here, kept, sliceValues_ne_nil_iff]
    refine exists_congr fun i => and_congr_right fun hi => ?_
    rw [columnOf_eq_iff many (inside i hi) hc]
  · constructor
    · rintro ⟨v, hv⟩
      simp [hc] at hv
    · rintro ⟨i, hi, rfl⟩
      exact absurd (columnOf_spec many wide (inside i hi)).1 hc

/-- What is left has a value in a column exactly where a point with a value goes there. -/
theorem hasValue_resample_iff {κ : Type} (opts : ChartOpts κ) (data : List (Option Ieee))
    {width : ℕ} (wide : 0 < width) (c : ℕ) :
    HasValue (resample opts data width) c ↔
      ∃ i, HasValue data i ∧ columnOf data.length width i = c := by
  by_cases few : data.length ≤ width
  · simp [resample_of_le opts wide few, columnOf, few]
  · rw [resample_of_lt opts wide (not_le.mp few)]
    refine hasValue_squeezed wide (not_le.mp few) (fun c => ?_) c
    by_cases peak : opts.peak = true
    · simp [peak, isSome_foldl_max]
    · by_cases values : sliceValues data width c = [] <;> simp [peak, values]

/-! ## Places on the axis -/

/-- The exact place of a point, on an axis of so many columns. -/
def place (n w i : ℕ) : ℚ := (i : ℚ) / ((n - 1 : ℕ) : ℚ) * (w - 1)

/-- The column in which the line has a point. -/
def lineColumn (data : List (Option Ieee)) (w i : ℕ) : ℕ := columnOf data.length w i

/-- The cell in which the dots have a point. -/
def dotCell {κ : Type} (opts : ChartOpts κ) (data : List (Option Ieee)) (w i : ℕ) : ℤ :=
  dotColumn (w * 2) (max (resample opts data (w * 2)).length 2) (columnOf data.length (w * 2) i) / 2

/-- The column of the axis in which a mark at the time of a point stands. -/
def axisColumn (n w i : ℕ) : ℕ := markerColumn w (.finite ((i : ℚ) / ((n - 1 : ℕ) : ℚ)))

section Distance

variable {n w i : ℕ}

/-- A point that is squeezed is less than a column off its place. -/
theorem abs_columnOf_sub_place (many : w < n) (wide : 0 < w) (hi : i < n) :
    |(columnOf n w i : ℚ) - place n w i| < 1 := by
  obtain ⟨-, low, high⟩ := columnOf_spec many wide hi
  generalize columnOf n w i = c at low high
  obtain ⟨last, rfl⟩ : ∃ last, n = last + 1 := ⟨n - 1, by omega⟩
  have hlast : (0 : ℚ) < last := by
    have : 0 < last := by omega
    exact_mod_cast this
  have low' : (c : ℚ) * (last + 1) + 1 ≤ (i + 1) * w := by exact_mod_cast low
  have high' : ((i : ℚ) + 1) * w ≤ (c + 1) * (last + 1) := by exact_mod_cast high
  have hi' : (i : ℚ) ≤ last := by exact_mod_cast Nat.lt_succ_iff.mp hi
  have hw : (w : ℚ) ≤ last := by exact_mod_cast Nat.lt_succ_iff.mp many
  have hw' : (1 : ℚ) ≤ w := by exact_mod_cast wide
  have hi0 : (0 : ℚ) ≤ i := i.cast_nonneg
  have scaled : place (last + 1) w i = i * (w - 1) / last := by
    rw [place, Nat.add_sub_cancel]
    ring
  have ahead := mul_nonneg (sub_nonneg.mpr hi') (show (0 : ℚ) ≤ last - w + 1 by linarith)
  have behind := mul_nonneg hi0 (show (0 : ℚ) ≤ last - w + 1 by linarith)
  rw [scaled, abs_lt]
  constructor
  · have bound : (i : ℚ) * (w - 1) / last < c + 1 := by
      rw [div_lt_iff₀ hlast]
      nlinarith
    linarith
  · have bound : (c : ℚ) - 1 < i * (w - 1) / last := by
      rw [lt_div_iff₀ hlast]
      nlinarith
    linarith

theorem share_mem (hn : 2 ≤ n) (hi : i < n) :
    0 ≤ (i : ℚ) / ((n - 1 : ℕ) : ℚ) ∧ (i : ℚ) / ((n - 1 : ℕ) : ℚ) ≤ 1 := by
  have hlast : (0 : ℚ) < ((n - 1 : ℕ) : ℚ) := by
    have : 0 < n - 1 := by omega
    exact_mod_cast this
  have hle : (i : ℚ) ≤ ((n - 1 : ℕ) : ℚ) := by
    have : i ≤ n - 1 := by omega
    exact_mod_cast this
  exact ⟨by positivity, (div_le_one hlast).mpr hle⟩

theorem clampUnit_of_mem {q : ℚ} (low : 0 ≤ q) (high : q ≤ 1) :
    (Ieee.finite q).clampUnit = .finite q := by
  rw [Ieee.clampUnit, Ieee.lt_finite, Ieee.lt_finite]
  simp [not_lt.mpr low, not_lt.mpr high]

/-- A mark stands in the column nearest to its place. -/
theorem abs_axisColumn_sub_place (hn : 2 ≤ n) (wide : 0 < w) (hi : i < n) :
    |(axisColumn n w i : ℚ) - place n w i| ≤ 1 / 2 := by
  obtain ⟨low, high⟩ := share_mem hn hi
  have width : (((w - 1 : ℕ) : ℚ)) = w - 1 := by
    rw [Nat.cast_sub wide, Nat.cast_one]
  have hplace : 0 ≤ place n w i := mul_nonneg low (by
    have : (1 : ℚ) ≤ w := by exact_mod_cast wide
    linarith)
  have column : (axisColumn n w i : ℤ) = roundHalfAway (place n w i) := by
    rw [axisColumn, markerColumn, clampUnit_of_mem low high, width]
    exact Int.toNat_of_nonneg (roundHalfAway_nonneg hplace)
  obtain ⟨below, above⟩ := roundHalfAway_spec hplace
  have cast : (axisColumn n w i : ℚ) = (roundHalfAway (place n w i) : ℚ) := by
    rw [← column, Int.cast_natCast]
  rw [cast, abs_le]
  constructor <;> linarith

/-- The cell of a dot column that is within a dot of its place is within a cell of its place. -/
theorem abs_half_sub_place {x : ℤ} {t : ℚ} (low : 0 ≤ t) (high : t ≤ 1)
    (near : |(x : ℚ) - t * (2 * w - 1)| < 1) : |((x / 2 : ℤ) : ℚ) - t * (w - 1)| < 1 := by
  have down : (2 : ℚ) * (x / 2 : ℤ) ≤ x := by
    have : 2 * (x / 2) ≤ x := by omega
    exact_mod_cast this
  have up : (x : ℚ) ≤ 2 * (x / 2 : ℤ) + 1 := by
    have : x ≤ 2 * (x / 2) + 1 := by omega
    exact_mod_cast this
  rw [abs_lt] at near ⊢
  constructor <;> linarith

/-- A dot stands within a cell of its place, with few points and with many. -/
theorem abs_dotCell_sub_place {κ : Type} (opts : ChartOpts κ) {data : List (Option Ieee)}
    (hn : 2 ≤ data.length) (wide : 0 < w) (hi : i < data.length) :
    |(dotCell opts data w i : ℚ) - place data.length w i| < 1 := by
  obtain ⟨low, high⟩ := share_mem hn hi
  rw [dotCell, place, length_resample opts (by omega)]
  refine abs_half_sub_place low high ?_
  by_cases few : data.length ≤ w * 2
  · have dots : max (min data.length (w * 2)) 2 = data.length := by omega
    have hdots : (0 : ℚ) ≤ ((w * 2 : ℕ) : ℚ) - 1 := by
      have : (1 : ℚ) ≤ ((w * 2 : ℕ) : ℚ) := by exact_mod_cast (show 1 ≤ w * 2 by omega)
      linarith
    obtain ⟨below, above⟩ := roundHalfAway_spec (mul_nonneg low hdots)
    rw [dots, columnOf, if_pos few, dotColumn]
    push_cast at below above ⊢
    rw [abs_lt]
    constructor <;> linarith
  · have dots : max (min data.length (w * 2)) 2 = w * 2 := by omega
    have hdots : ((w * 2 - 1 : ℕ) : ℚ) = ((w * 2 : ℕ) : ℚ) - 1 := by
      rw [Nat.cast_sub (by omega), Nat.cast_one]
    have pos : (0 : ℚ) < ((w * 2 : ℕ) : ℚ) - 1 := by
      have : (1 : ℚ) < ((w * 2 : ℕ) : ℚ) := by exact_mod_cast (show 1 < w * 2 by omega)
      linarith
    have squeezed := abs_columnOf_sub_place (not_le.mp few) (by omega) hi
    have column : dotColumn (w * 2) (w * 2) (columnOf data.length (w * 2) i) =
        columnOf data.length (w * 2) i := by
      rw [dotColumn, hdots, div_mul_cancel₀ _ pos.ne', roundHalfAway,
        if_neg (not_lt.mpr (Nat.cast_nonneg _)), Int.floor_eq_iff]
      constructor <;> push_cast <;> linarith
    rw [dots, column]
    rw [place] at squeezed
    push_cast at squeezed ⊢
    rwa [mul_comm (w : ℚ) 2] at squeezed

/-- Where the line is not squeezed, a point is off its place by its share of the columns that are
left over. -/
theorem abs_column_sub_place_of_le (hn : 2 ≤ n) (few : n ≤ w) (close : w ≤ n + 1) (hi : i < n) :
    |(columnOf n w i : ℚ) - place n w i| ≤ 1 := by
  obtain ⟨low, high⟩ := share_mem hn hi
  have hlast : ((n - 1 : ℕ) : ℚ) = n - 1 := by
    rw [Nat.cast_sub (by omega), Nat.cast_one]
  have pos : (0 : ℚ) < ((n - 1 : ℕ) : ℚ) := by exact_mod_cast (show 0 < n - 1 by omega)
  have whole : (i : ℚ) = i / ((n - 1 : ℕ) : ℚ) * (n - 1) := by
    rw [← hlast, div_mul_cancel₀ _ pos.ne']
  have hfew : (n : ℚ) ≤ w := by exact_mod_cast few
  have hclose : (w : ℚ) ≤ n + 1 := by exact_mod_cast close
  rw [columnOf, if_pos few, place, abs_sub_comm, abs_le]
  generalize (i : ℚ) / ((n - 1 : ℕ) : ℚ) = t at low high whole
  rw [whole]
  constructor <;> nlinarith

/-- Two places that are near to a third are next to each other. -/
theorem abs_sub_le_one {a b : ℤ} {p x y : ℚ} (ha : |(a : ℚ) - p| ≤ x) (hb : |(b : ℚ) - p| ≤ y)
    (near : x + y < 2) : |a - b| ≤ 1 := by
  have total := abs_sub_le (a : ℚ) p b
  rw [abs_sub_comm p] at total
  have short : |(a : ℚ) - b| < 2 := by linarith
  have : |a - b| < 2 := by exact_mod_cast short
  omega

end Distance

/-! ## The end of the axis -/

section Axis

variable {κ : Type}

theorem foldl_set (chars : List Char) (start k : ℕ) (cells : List (Char × Option κ))
    (fits : start + k + chars.length = cells.length) :
    (chars.zipIdx k).foldl (fun cells ch => cells.set (start + ch.2) (ch.1, none)) cells =
      cells.take (start + k) ++ chars.map fun ch => (ch, none) := by
  induction chars generalizing k cells with
  | nil => simp_all
  | cons ch chars ih =>
      rw [List.length_cons] at fits
      rw [List.zipIdx_cons, List.foldl_cons, ih (k + 1) _ (by rw [List.length_set]; omega),
        List.map_cons, ← Nat.add_assoc, List.take_add_one, List.take_set_of_le le_rfl]
      simp [show start + k < cells.length by omega]

/-- A text that is put at the end of the cells stands behind what they begin with. -/
theorem putText_end {cells : List (Char × Option κ)} {start : ℕ} {text : String}
    (fits : start + text.length = cells.length) :
    putText cells start text = cells.take start ++ text.toList.map fun ch => (ch, none) :=
  foldl_set text.toList start 0 cells (by rw [String.length_toList]; exact fits)

theorem length_putText (cells : List (Char × Option κ)) (start : ℕ) (text : String) :
    (putText cells start text).length = cells.length := by
  unfold putText
  generalize text.toList.zipIdx = chars
  induction chars generalizing cells with
  | nil => rfl
  | cons ch chars ih => rw [List.foldl_cons, ih, List.length_set]

theorem length_marked (w : ℕ) (markers : List (Marker κ)) (cells : List (Char × Option κ)) :
    (markers.foldl (fun cells m => cells.set (markerColumn w m.at_) (m.glyph, some m.style))
      cells).length = cells.length := by
  induction markers generalizing cells with
  | nil => rfl
  | cons m markers ih => rw [List.foldl_cons, ih, List.length_set]

theorem timeAxis_eq (w : ℕ) (opts : ChartOpts κ) :
    ∃ cells, cells.length = w ∧ timeAxis w opts = putText cells (w - 4) " now" :=
  ⟨_, by rw [length_putText, length_marked, List.length_replicate], rfl⟩

/-- The axis ends in the present. -/
theorem timeAxis_now (w : ℕ) (opts : ChartOpts κ) (wide : 4 ≤ w) :
    ((timeAxis w opts).map Prod.fst).drop (w - 3) = ['n', 'o', 'w'] := by
  have text : " now".length = 4 := by rfl
  obtain ⟨cells, length, haxis⟩ := timeAxis_eq w opts
  have front : ((cells.take (w - 4)).map Prod.fst).length = w - 4 := by
    rw [List.length_map, List.length_take, length]
    omega
  rw [haxis, putText_end (by omega), List.map_append, List.drop_append, front,
    List.drop_eq_nil_of_le (by omega), show w - 3 - (w - 4) = 1 by omega]
  rfl

end Axis

/-- Both kinds of charts have every point in the same place, up to a column, and that is the place
the axis has for its time; the newest point stands under its end. -/
structure SamePlaces {κ : Type} (opts : ChartOpts κ) (data : List (Option Ieee)) (w : ℕ) :
    Prop where
  line_dots : ∀ i < data.length, |(lineColumn data w i : ℤ) - dotCell opts data w i| ≤ 1
  line_axis : ∀ i < data.length,
    |(lineColumn data w i : ℤ) - axisColumn data.length w i| ≤ 1
  dots_axis : ∀ i < data.length, |dotCell opts data w i - axisColumn data.length w i| ≤ 1
  newest : w - 3 ≤ lineColumn data w (data.length - 1) ∧ lineColumn data w (data.length - 1) < w ∧
    (w : ℤ) - 3 ≤ dotCell opts data w (data.length - 1) ∧ dotCell opts data w (data.length - 1) < w
  now : ((timeAxis w opts).map Prod.fst).drop (w - 3) = ['n', 'o', 'w']

section Places

variable {κ : Type} {opts : ChartOpts κ} {data : List (Option Ieee)} {w : ℕ}

/-- The last point of a line is in the last column, or in the one before where there is a column
too many. -/
theorem lineColumn_last (hn : 2 ≤ data.length) (wide : 0 < w) (close : w ≤ data.length + 1) :
    w - 2 ≤ lineColumn data w (data.length - 1) ∧ lineColumn data w (data.length - 1) < w := by
  unfold lineColumn
  by_cases few : data.length ≤ w
  · rw [columnOf, if_pos few]
    omega
  · obtain ⟨low, -, high⟩ := columnOf_spec (not_le.mp few) wide
      (show data.length - 1 < data.length by omega)
    rw [Nat.sub_add_cancel (by omega), Nat.mul_comm] at high
    have := Nat.le_of_mul_le_mul_right high (by omega)
    omega

theorem place_last {n : ℕ} (hn : 2 ≤ n) : place n w (n - 1) = w - 1 := by
  have pos : (0 : ℚ) < ((n - 1 : ℕ) : ℚ) := by exact_mod_cast (show 0 < n - 1 by omega)
  rw [place, div_self pos.ne', one_mul]

/-- The last dot is in the last cell. -/
theorem dotCell_last (hn : 2 ≤ data.length) (wide : 4 ≤ w) :
    (w : ℤ) - 3 ≤ dotCell opts data w (data.length - 1) ∧
      dotCell opts data w (data.length - 1) < w := by
  have near := abs_dotCell_sub_place opts hn (show 0 < w by omega)
    (show data.length - 1 < data.length by omega)
  rw [place_last hn, abs_lt] at near
  have low : ((w : ℤ) : ℚ) - 2 < dotCell opts data w (data.length - 1) := by
    push_cast
    linarith
  have high : (dotCell opts data w (data.length - 1) : ℚ) < (w : ℤ) := by
    push_cast
    linarith
  have low' : (w : ℤ) - 2 < dotCell opts data w (data.length - 1) := by exact_mod_cast low
  have high' : dotCell opts data w (data.length - 1) < w := by exact_mod_cast high
  omega

/-- A line that is too short for its axis ends before the present. -/
theorem le_of_line_axis (hn : 2 ≤ data.length) (wide : 0 < w)
    (last : |(lineColumn data w (data.length - 1) : ℤ) -
      axisColumn data.length w (data.length - 1)| ≤ 1) : w ≤ data.length + 1 := by
  by_contra stretched
  have mark := abs_axisColumn_sub_place hn wide (show data.length - 1 < data.length by omega)
  rw [place_last hn, abs_le] at mark
  have high : (w : ℚ) - 2 < axisColumn data.length w (data.length - 1) := by linarith
  have high' : (w : ℤ) - 2 < axisColumn data.length w (data.length - 1) := by exact_mod_cast high
  rw [lineColumn, columnOf, if_pos (by omega), abs_le] at last
  omega

end Places

/-- The two kinds of charts agree exactly where there is at most one column more than there are
points. -/
theorem samePlaces_iff {κ : Type} (opts : ChartOpts κ) (data : List (Option Ieee)) (w : ℕ)
    (hn : 2 ≤ data.length) (wide : 4 ≤ w) : SamePlaces opts data w ↔ w ≤ data.length + 1 := by
  have hw : 0 < w := by omega
  constructor
  · intro same
    exact le_of_line_axis hn hw (same.line_axis (data.length - 1) (by omega))
  · intro close
    have line : ∀ i < data.length,
        |(((lineColumn data w i : ℕ) : ℤ) : ℚ) - place data.length w i| ≤ 1 := by
      intro i hi
      rw [Int.cast_natCast]
      by_cases few : data.length ≤ w
      · exact abs_column_sub_place_of_le hn few close hi
      · exact (abs_columnOf_sub_place (not_le.mp few) hw hi).le
    have axis : ∀ i < data.length,
        |(((axisColumn data.length w i : ℕ) : ℤ) : ℚ) - place data.length w i| ≤ 1 / 2 := by
      intro i hi
      rw [Int.cast_natCast]
      exact abs_axisColumn_sub_place hn hw hi
    have dots := fun i (hi : i < data.length) => abs_dotCell_sub_place opts hn hw hi
    have newestLine := lineColumn_last hn hw close
    exact {
      line_dots := fun i hi => abs_sub_le_one (line i hi) le_rfl (by linarith [dots i hi])
      line_axis := fun i hi => abs_sub_le_one (line i hi) (axis i hi) (by norm_num)
      dots_axis := fun i hi => abs_sub_le_one (dots i hi).le (axis i hi) (by norm_num)
      newest := ⟨by omega, newestLine.2, dotCell_last hn wide⟩
      now := timeAxis_now w opts wide }

def plainOpts : ChartOpts Unit := { fmt := fun _ => "", xLeft := "-1h" }

theorem samePlaces_iff_three :
    SamePlaces plainOpts [some (.finite 1), none, some (.finite 2)] 4 :=
  (samePlaces_iff plainOpts _ 4 (by simp) le_rfl).mpr (by simp)

/-- Two points on a wide chart: as a line they stand side by side at its left end. -/
theorem two_points_left : ¬ ∀ (opts : ChartOpts Unit) (data : List (Option Ieee)) (w : ℕ),
    2 ≤ data.length → 4 ≤ w → SamePlaces opts data w := by
  intro claim
  have same := claim plainOpts [some (.finite 1), some (.finite 2)] 100 (by simp) (by omega)
  have close := le_of_line_axis (by simp) (by omega) (same.line_axis 1 (by simp))
  simp at close

end Lss.Analysis.TimeColumns
