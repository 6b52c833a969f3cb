import Lss.Library.DigitalLine
import Lss.Model.Canvas

/-!
# The dots of a line

A line between two dots is drawn by a loop that stops only where both coordinates are those of the
end. The pen follows the digital line between the two: after so many steps each coordinate has gone
as far as the nearest row of that line, and the error term is how far off it is. So the loop ends
after as many steps as the longer side has, and never goes further than one dot at a time.
-/

set_option autoImplicit false

namespace Lss.Analysis.SegmentDots

open Lss.Library Lss.Library.DigitalLine Lss.Model

/-- How far apart two coordinates are. -/
def span (u v : Int64) : ℕ := (v.toInt - u.toInt).natAbs

/-- How far a line goes along its longer side. -/
def longer (a b : Dot) : ℕ := max (span a.1 b.1) (span a.2 b.2)

/-- How far a line goes along its shorter side. -/
def shorter (a b : Dot) : ℕ := min (span a.1 b.1) (span a.2 b.2)

/-- Dots that are the same or touch. -/
def Touching (p q : Dot) : Prop :=
  |q.1.toInt - p.1.toInt| ≤ 1 ∧ |q.2.toInt - p.2.toInt| ≤ 1

/-- Which way a coordinate goes. -/
def towards (u v : Int64) : Int64 := if u < v then 1 else -1

/-! ## Machine integers that do not wrap around -/

theorem bmod_of_fits {v : ℤ} (low : -2 ^ 63 ≤ v) (high : v < 2 ^ 63) : v.bmod (2 ^ 64) = v := by
  apply Int.bmod_eq_of_le_mul_two <;> push_cast <;> omega

theorem toInt_bounds (v : Int64) : -2 ^ 63 ≤ v.toInt ∧ v.toInt < 2 ^ 63 :=
  ⟨v.le_toInt, v.toInt_lt⟩

theorem toInt_sub_abs {u v : Int64} (fits : span u v < 2 ^ 63) :
    (v - u).abs.toInt = span u v := by
  have hsub : (v - u).toInt = v.toInt - u.toInt := by
    unfold span at fits
    rw [Int64.toInt_sub]
    exact bmod_of_fits (by omega) (by omega)
  have hmin : (v - u).toBitVec ≠ BitVec.intMin 64 := by
    intro heq
    have hval : (v - u).toInt = -2 ^ 63 := by
      rw [← Int64.toInt_toBitVec, heq]
      decide
    unfold span at fits
    omega
  calc (v - u).abs.toInt = ((v - u).toBitVec.abs).toInt := rfl
    _ = ((v - u).toBitVec.toInt.natAbs : ℤ) := BitVec.toInt_abs_eq_natAbs_of_ne_intMin hmin
    _ = span u v := by rw [Int64.toInt_toBitVec, hsub, span]

theorem toInt_towards (u v : Int64) :
    (towards u v).toInt = if u.toInt < v.toInt then 1 else -1 := by
  unfold towards
  simp only [Int64.lt_iff_toInt_lt]
  split <;> rfl

/-- A coordinate gets where it goes by as many steps as it is away. -/
theorem reaches (u v : Int64) : u.toInt + (towards u v).toInt * span u v = v.toInt := by
  rw [toInt_towards, span]
  split <;> omega

/-- On the way a coordinate stays between the two ends. -/
theorem between (u v : Int64) {j : ℕ} (h : j ≤ span u v) :
    -2 ^ 63 ≤ u.toInt + (towards u v).toInt * j ∧ u.toInt + (towards u v).toInt * j < 2 ^ 63 := by
  have hu := toInt_bounds u
  have hv := toInt_bounds v
  rw [toInt_towards]
  unfold span at h
  split <;> omega

/-! ## The pen -/

variable {a b : Dot}

/-- The pen after so many steps: on the digital line, and off it by what the error says. -/
structure OnLine (a b : Dot) (k : ℕ) (p : Pen) : Prop where
  column : p.place.1.toInt =
    a.1.toInt + (towards a.1 b.1).toInt * nearest (longer a b) (span a.1 b.1) k
  row : p.place.2.toInt =
    a.2.toInt + (towards a.2 b.2).toInt * nearest (longer a b) (span a.2 b.2) k
  err : p.err.toInt = off (span a.1 b.1) (span a.2 b.2) k

/-- The pen a line is started with. -/
def startPen (a b : Dot) : Pen := ⟨a, (wayFrom a b).dx + (wayFrom a b).dy⟩

theorem segmentDots_eq (rounds : ℕ) (a b : Dot) :
    segmentDots rounds a b =
      (Loop.path (fun p => p.place = b) (segmentStep (wayFrom a b)) rounds (startPen a b)).map
        (·.map Pen.place) := rfl

theorem span_le_longer : span a.1 b.1 ≤ longer a b ∧ span a.2 b.2 ≤ longer a b :=
  ⟨le_max_left _ _, le_max_right _ _⟩

theorem nearest_le {rise k : ℕ} (hrise : rise ≤ longer a b) (hk : k ≤ longer a b) :
    nearest (longer a b) rise k ≤ rise := by
  calc nearest (longer a b) rise k
    _ ≤ nearest (longer a b) rise (longer a b) := by
        unfold nearest
        gcongr
    _ = rise := nearest_end hrise

/-- A coordinate goes on with its side of the line. -/
theorem toInt_goesOn {u v w : Int64} {j j' : ℕ} (hw : w.toInt = u.toInt + (towards u v).toInt * j)
    (hstep : j' = j ∨ j' = j + 1) (hj : j' ≤ span u v) (moves : Prop) [Decidable moves]
    (hmoves : moves ↔ j' = j + 1) :
    (if moves then w + towards u v else w).toInt = u.toInt + (towards u v).toInt * j' := by
  have inRange := between u v hj
  by_cases h : moves
  · have hj' : j' = j + 1 := hmoves.mp h
    rw [if_pos h, Int64.toInt_add, hw]
    rw [show u.toInt + (towards u v).toInt * j + (towards u v).toInt =
      u.toInt + (towards u v).toInt * j' by rw [hj']; push_cast; ring]
    exact bmod_of_fits inRange.1 inRange.2
  · have hj' : j' = j := hstep.resolve_right fun hj' => h (hmoves.mpr hj')
    rw [if_neg h, hw, hj']

section Fits

variable (fits : 3 * longer a b < 2 ^ 63 + 2 * shorter a b)

include fits

theorem longer_lt : longer a b < 2 ^ 63 := by
  have hshort : shorter a b ≤ longer a b := min_le_max
  omega

theorem toInt_dx : (wayFrom a b).dx.toInt = span a.1 b.1 :=
  toInt_sub_abs (lt_of_le_of_lt span_le_longer.1 (longer_lt fits))

theorem toInt_dy : (wayFrom a b).dy.toInt = -span a.2 b.2 := by
  have hspan : span a.2 b.2 < 2 ^ 63 := lt_of_le_of_lt span_le_longer.2 (longer_lt fits)
  change (-(b.2 - a.2).abs).toInt = _
  rw [Int64.toInt_neg, toInt_sub_abs hspan]
  exact bmod_of_fits (by omega) (by omega)

theorem onLine_start : OnLine a b 0 (startPen a b) := by
  have hlong := longer_lt fits
  have hspans : span a.1 b.1 ≤ longer a b ∧ span a.2 b.2 ≤ longer a b := span_le_longer
  refine ⟨by simp [startPen], by simp [startPen], ?_⟩
  change ((wayFrom a b).dx + (wayFrom a b).dy).toInt = _
  rw [Int64.toInt_add, toInt_dx fits, toInt_dy fits, off_zero, ← sub_eq_add_neg]
  exact bmod_of_fits (by omega) (by omega)

/-- What the loop compares is the error twice over, which does not wrap around. -/
theorem toInt_twice {k : ℕ} {p : Pen} (hlong : 0 < longer a b) (h : OnLine a b k p) :
    (2 * p.err).toInt = 2 * off (span a.1 b.1) (span a.2 b.2) k := by
  have hoff := abs_le.mp (abs_two_mul_off_le (k := k) (show 0 < max _ _ from hlong))
  change -(3 * (longer a b : ℤ) - 2 * (shorter a b : ℤ)) ≤ _ ∧ _ ≤
    3 * (longer a b : ℤ) - 2 * (shorter a b : ℤ) at hoff
  rw [Int64.toInt_mul, h.err]
  exact bmod_of_fits (by simp; omega) (by simp; omega)

/-- The error after a step does not wrap around either. -/
theorem bmod_off {k : ℕ} (hlong : 0 < longer a b) :
    (off (span a.1 b.1) (span a.2 b.2) k).bmod (2 ^ 64) = off (span a.1 b.1) (span a.2 b.2) k := by
  have hoff := abs_le.mp (abs_two_mul_off_le (k := k) (show 0 < max _ _ from hlong))
  change -(3 * (longer a b : ℤ) - 2 * (shorter a b : ℤ)) ≤ _ ∧ _ ≤
    3 * (longer a b : ℤ) - 2 * (shorter a b : ℤ) at hoff
  exact bmod_of_fits (by omega) (by omega)

theorem column_moves {k : ℕ} {p : Pen} (hlong : 0 < longer a b) (h : OnLine a b k p) :
    (wayFrom a b).dy ≤ 2 * p.err ↔
      nearest (longer a b) (span a.1 b.1) (k + 1) =
        nearest (longer a b) (span a.1 b.1) k + 1 := by
  rw [Int64.le_iff_toInt_le, toInt_dy fits, toInt_twice fits hlong h]
  exact column_moves_iff hlong

theorem row_moves {k : ℕ} {p : Pen} (hlong : 0 < longer a b) (h : OnLine a b k p) :
    2 * p.err ≤ (wayFrom a b).dx ↔
      nearest (longer a b) (span a.2 b.2) (k + 1) =
        nearest (longer a b) (span a.2 b.2) k + 1 := by
  rw [Int64.le_iff_toInt_le, toInt_dx fits, toInt_twice fits hlong h]
  exact row_moves_iff hlong

/-- A step takes the pen to the next place of the line. -/
theorem onLine_step {k : ℕ} {p : Pen} (hk : k < longer a b) (h : OnLine a b k p) :
    OnLine a b (k + 1) (segmentStep (wayFrom a b) p) := by
  have hlong : 0 < longer a b := by omega
  have hcol := column_moves fits hlong h
  have hrow := row_moves fits hlong h
  have colStep := nearest_succ (k := k) (span_le_longer (a := a) (b := b)).1
  have rowStep := nearest_succ (k := k) (span_le_longer (a := a) (b := b)).2
  refine ⟨?_, ?_, ?_⟩
  · rw [segmentStep_column]
    exact toInt_goesOn h.column colStep (nearest_le span_le_longer.1 hk) _ hcol
  · rw [segmentStep_row]
    exact toInt_goesOn h.row rowStep (nearest_le span_le_longer.2 hk) _ hrow
  · -- the sums may wrap around on the way, but what they come to does not
    rw [segmentStep_err, ← bmod_off fits hlong]
    have hoff := off_succ (span a.1 b.1) (span a.2 b.2) k
    change _ = _ + (if nearest (longer a b) _ _ = nearest (longer a b) _ _ + 1 then _ else _) +
      (if nearest (longer a b) _ _ = nearest (longer a b) _ _ + 1 then _ else _) at hoff
    simp only [← hcol, ← hrow] at hoff
    rw [hoff, Int64.toInt_add]
    split <;> split <;>
      simp [Int64.toInt_add, h.err, toInt_dx fits, toInt_dy fits, Int.add_assoc]

/-- The pen follows the line all the way. -/
theorem onLine_iterate {k : ℕ} (hk : k ≤ longer a b) :
    OnLine a b k ((segmentStep (wayFrom a b))^[k] (startPen a b)) := by
  induction k with
  | zero => exact onLine_start fits
  | succ k ih =>
      rw [Function.iterate_succ_apply']
      exact onLine_step fits hk (ih (by omega))

end Fits

/-- Where the line has come all the way the pen is at its end. -/
theorem place_of_end {p : Pen} (h : OnLine a b (longer a b) p) : p.place = b := by
  have hcol := h.column
  have hrow := h.row
  rw [nearest_end span_le_longer.1, reaches] at hcol
  rw [nearest_end span_le_longer.2, reaches] at hrow
  exact Prod.ext (Int64.toInt_inj.mp hcol) (Int64.toInt_inj.mp hrow)

/-- A coordinate that goes as far as the line is not where it goes before the line is. -/
theorem not_there_yet {u v w : Int64} {n k : ℕ} (hspan : span u v = n) (hk : k < n)
    (hw : w.toInt = u.toInt + (towards u v).toInt * k) : w ≠ v := by
  rintro rfl
  rw [toInt_towards] at hw
  unfold span at hspan
  split at hw <;> omega

/-- Before that the pen is not at the end. -/
theorem place_ne_of_before {k : ℕ} {p : Pen} (hk : k < longer a b) (h : OnLine a b k p) :
    p.place ≠ b := by
  have hlong : 0 < longer a b := by omega
  intro hplace
  rcases max_choice (span a.1 b.1) (span a.2 b.2) with hmax | hmax
  · have hcol := h.column
    rw [show span a.1 b.1 = longer a b from hmax.symm, nearest_diagonal hlong] at hcol
    exact not_there_yet hmax.symm hk hcol (congrArg Prod.fst hplace)
  · have hrow := h.row
    rw [show span a.2 b.2 = longer a b from hmax.symm, nearest_diagonal hlong] at hrow
    exact not_there_yet hmax.symm hk hrow (congrArg Prod.snd hplace)

/-- Two pens on the line, one step apart, touch. -/
theorem touching_of_onLine {k : ℕ} {p q : Pen} (hp : OnLine a b k p) (hq : OnLine a b (k + 1) q) :
    Touching p.place q.place := by
  have apart {u v : Int64} {n : ℕ} (hspan : span u v ≤ n) {w w' : Int64}
      (hw : w.toInt = u.toInt + (towards u v).toInt * nearest n (span u v) k)
      (hw' : w'.toInt = u.toInt + (towards u v).toInt * nearest n (span u v) (k + 1)) :
      |w'.toInt - w.toInt| ≤ 1 := by
    rw [hw, hw', toInt_towards, abs_le]
    have hstep := nearest_succ (k := k) hspan
    split <;> omega
  exact ⟨apart span_le_longer.1 hp.column hq.column, apart span_le_longer.2 hp.row hq.row⟩

/-- A line between two dots reaches its end after as many steps as its longer side has, from its
start on and one dot at a time. -/
theorem segment_reaches (a b : Dot) (fits : 3 * longer a b < 2 ^ 63 + 2 * shorter a b) :
    ∃ dots : List Dot,
      (∀ rounds, segmentDots rounds a b = if longer a b < rounds then some dots else none) ∧
      dots.length = longer a b + 1 ∧
      dots.head? = some a ∧ dots.getLast? = some b ∧
      dots.IsChain Touching := by
  have onLine {k : ℕ} (hk : k ≤ longer a b) := onLine_iterate fits hk
  have pens := Loop.path_eq (fun p : Pen => p.place = b) (segmentStep (wayFrom a b))
    (fun k hk => place_ne_of_before hk (onLine (le_of_lt hk)))
    (place_of_end (onLine le_rfl))
  refine ⟨(Loop.states (segmentStep (wayFrom a b)) (startPen a b) (longer a b)).map Pen.place,
    ?_, ?_, ?_, ?_, ?_⟩
  · intro rounds
    rw [segmentDots_eq, pens]
    split <;> rfl
  · simp
  · rw [List.head?_eq_getElem?, List.getElem?_map, Loop.getElem?_states _ (Nat.zero_le _)]
    rfl
  · rw [List.getLast?_eq_getElem?, List.getElem?_map, List.length_map, Loop.length_states,
      Nat.add_sub_cancel, Loop.getElem?_states _ le_rfl]
    exact congrArg some (place_of_end (onLine le_rfl))
  · rw [List.isChain_map]
    exact Loop.isChain_states _ fun k hk => touching_of_onLine (onLine (le_of_lt hk)) (onLine hk)

theorem segment_reaches_slope :
    3 * longer (1, 5) (7, 2) < 2 ^ 63 + 2 * shorter (1, 5) (7, 2) ∧
      ∃ dots : List Dot,
        (∀ rounds, segmentDots rounds (1, 5) (7, 2) =
          if longer (1, 5) (7, 2) < rounds then some dots else none) ∧
        dots.length = longer (1, 5) (7, 2) + 1 ∧
        dots.head? = some (1, 5) ∧ dots.getLast? = some (7, 2) ∧
        dots.IsChain Touching :=
  ⟨by decide, segment_reaches (1, 5) (7, 2) (by decide)⟩

/-! ## A line too long for its error term

Half way along a flat line the error is one and a half times as long as the line, and twice that
wraps around where the line is longer than a third of the largest machine integer.
-/

/-- How far such a line goes across: two less than a quarter of the machine integers. -/
def farAcross : Int64 := 4611686018427387902

/-- The end of a line that starts in the corner. -/
def farEnd : Dot := (farAcross, 1)

/-- A step of the line to there. -/
def farStep : Pen → Pen := segmentStep ⟨farAcross, -1, 1, 1⟩

theorem toInt_farAcross : farAcross.toInt = 2 ^ 62 - 2 := by decide

theorem wayFrom_farEnd : wayFrom (0, 0) farEnd = ⟨farAcross, -1, 1, 1⟩ := by decide

theorem toInt_farColumn (p : Pen) :
    (farStep p).place.1.toInt =
      if -1 ≤ (2 * p.err.toInt).bmod (2 ^ 64) then (p.place.1.toInt + 1).bmod (2 ^ 64)
      else p.place.1.toInt := by
  rw [farStep, segmentStep_column]
  simp only [Int64.le_iff_toInt_le, Int64.toInt_mul]
  change (if -1 ≤ (2 * p.err.toInt).bmod (2 ^ 64) then _ else _ : Int64).toInt = _
  split
  · rw [Int64.toInt_add]
    rfl
  · rfl

theorem toInt_farErr (p : Pen) :
    (farStep p).err.toInt =
      (p.err.toInt + (if -1 ≤ (2 * p.err.toInt).bmod (2 ^ 64) then -1 else 0) +
        if (2 * p.err.toInt).bmod (2 ^ 64) ≤ 2 ^ 62 - 2 then 2 ^ 62 - 2 else 0).bmod (2 ^ 64) := by
  rw [farStep, segmentStep_err]
  simp only [Int64.le_iff_toInt_le, Int64.toInt_mul, toInt_farAcross]
  change ((if -1 ≤ (2 * p.err.toInt).bmod (2 ^ 64) then _ else _) +
    (if (2 * p.err.toInt).bmod (2 ^ 64) ≤ 2 ^ 62 - 2 then _ else _) : Int64).toInt = _
  split <;> split <;>
    simp [Int64.toInt_add, toInt_farAcross, Int.sub_eq_add_neg]

/-- Half of the way the pen goes straight on. -/
theorem far_straight {k : ℕ} (hk : k ≤ 2 ^ 61 - 2) :
    (farStep^[k] (startPen (0, 0) farEnd)).place.1.toInt = k ∧
      (farStep^[k] (startPen (0, 0) farEnd)).err.toInt = 2 ^ 62 - 3 - k := by
  induction k with
  | zero => decide
  | succ k ih =>
      obtain ⟨hcol, herr⟩ := ih (by omega)
      have twice : (2 * (2 ^ 62 - 3 - (k : ℤ))).bmod (2 ^ 64) = 2 * (2 ^ 62 - 3 - (k : ℤ)) :=
        bmod_of_fits (by omega) (by omega)
      rw [Function.iterate_succ_apply', toInt_farColumn, toInt_farErr, hcol, herr, twice,
        if_pos (by omega), if_pos (by omega), if_neg (by omega)]
      rw [Nat.cast_succ]
      constructor
      · exact bmod_of_fits (by omega) (by omega)
      · rw [bmod_of_fits (by omega) (by omega)]
        ring

/-- In the middle the error wraps around, and the pen does not go on. -/
theorem far_stalls {k : ℕ} (hk : k = 2 ^ 61) :
    (farStep^[k] (startPen (0, 0) farEnd)).place.1.toInt = k - 1 := by
  obtain ⟨n, rfl⟩ : ∃ n, k = n + 2 := ⟨k - 2, by omega⟩
  obtain ⟨hcol, herr⟩ := far_straight (k := n) (by omega)
  have hn : (n : ℤ) = 2 ^ 61 - 2 := by omega
  have before : (2 * (2 ^ 62 - 3 - (n : ℤ))).bmod (2 ^ 64) = 2 ^ 62 - 2 := by
    rw [hn]
    decide
  have after : (2 * (3 * 2 ^ 61 - 4 : ℤ)).bmod (2 ^ 64) = -2 ^ 62 - 8 := by decide
  have turned : (farStep (farStep^[n] (startPen (0, 0) farEnd))).err.toInt = 3 * 2 ^ 61 - 4 := by
    rw [toInt_farErr, herr, before, if_pos (by omega), if_pos (by omega), hn]
    decide
  have ahead : (farStep (farStep^[n] (startPen (0, 0) farEnd))).place.1.toInt = n + 1 := by
    rw [toInt_farColumn, herr, before, if_pos (by omega), hcol]
    exact bmod_of_fits (by omega) (by omega)
  rw [Function.iterate_succ_apply', Function.iterate_succ_apply', toInt_farColumn, turned, after,
    if_neg (by omega), ahead]
  push_cast
  ring

/-- What the pen has lost there it does not make up for. -/
theorem far_behind {k : ℕ} (j : ℕ) (hk : k = 2 ^ 61) (hj : j < 2 ^ 62) :
    0 ≤ (farStep^[j] (farStep^[k] (startPen (0, 0) farEnd))).place.1.toInt ∧
      (farStep^[j] (farStep^[k] (startPen (0, 0) farEnd))).place.1.toInt ≤ 2 ^ 61 - 1 + j := by
  induction j with
  | zero =>
      have here := far_stalls hk
      simp only [Function.iterate_zero_apply, here]
      omega
  | succ j ih =>
      obtain ⟨low, high⟩ := ih (by omega)
      rw [Function.iterate_succ_apply', toInt_farColumn]
      split
      · rw [bmod_of_fits (by omega) (by omega)]
        omega
      · omega

/-- A line as long as twice its extent still fits a machine integer need not be drawn in as many
dots as its longer side asks for. -/
theorem far_line_not_reached :
    ¬ ∀ a b : Dot, 2 * (span a.1 b.1 + span a.2 b.2) < 2 ^ 63 →
      ∃ dots : List Dot,
        (∀ rounds, segmentDots rounds a b = if longer a b < rounds then some dots else none) ∧
        dots.length = longer a b + 1 ∧
        dots.head? = some a ∧ dots.getLast? = some b ∧
        dots.IsChain Touching := by
  intro claim
  obtain ⟨dots, reached, hlen, -, -, -⟩ := claim (0, 0) farEnd (by decide)
  have hlonger : longer (0, 0) farEnd = 2 ^ 62 - 2 := by decide
  have drawn := reached (longer (0, 0) farEnd + 1)
  rw [if_pos (Nat.lt_succ_self _), segmentDots_eq, Option.map_eq_some_iff] at drawn
  obtain ⟨pens, hpens, rfl⟩ := drawn
  obtain ⟨n, rfl, stops⟩ := Loop.of_path _ _ hpens
  rw [List.length_map, Loop.length_states, hlonger] at hlen
  obtain ⟨k, hk⟩ : ∃ k : ℕ, k = 2 ^ 61 := ⟨_, rfl⟩
  obtain ⟨j, rfl⟩ : ∃ j, n = j + k := ⟨n - k, by omega⟩
  have behind := (far_behind j hk (by omega)).2
  rw [wayFrom_farEnd, Function.iterate_add_apply] at stops
  change (farStep^[j] (farStep^[k] (startPen (0, 0) farEnd))).place = farEnd at stops
  rw [stops] at behind
  change farAcross.toInt ≤ _ at behind
  rw [toInt_farAcross] at behind
  omega

end Lss.Analysis.SegmentDots
