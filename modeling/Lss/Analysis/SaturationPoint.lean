import Lss.Library.Unbeaten
import Lss.Model.Saturation
import Mathlib.Data.List.Nodup

/-!
# Where a curve settles

A curve need not rise evenly, and levels that nobody ran are missing from it. Among the levels
that count as evidence the one that is named is the lowest from which nothing higher is faster
by more than the noise, and what was seen above it, or the best speed on record, says no other.
-/

set_option autoImplicit false

namespace Lss.Analysis.SaturationPoint

open Lss.Model Lss.Library.Unbeaten

/-! ## Measured levels -/

/-- The rows of a curve: each number of users at once has one row, and nobody is no level. -/
structure MeasuredLevels where
  rows : List CurveRow
  distinct : (rows.map CurveRow.running).Nodup
  counted : ∀ r ∈ rows, 0 < r.running

/-- The rows that the live traffic gives.
SOURCE: lss-core/src/loadout.rs:268-286 -/
def MeasuredLevels.live (c : Curve) (slots : ℕ) : MeasuredLevels where
  rows := c.rows slots
  distinct := by
    unfold Curve.rows
    rw [List.map_map]
    exact List.nodup_range.map fun _ _ h => Nat.succ_injective h
  counted := by
    intro r hr
    obtain ⟨i, -, rfl⟩ := List.mem_map.mp hr
    exact Nat.succ_pos i

@[simp] theorem running_layOver (measured : List CurveRow) (l : CurveRow) :
    (layOver measured l).running = l.running := by
  unfold layOver
  cases hb : measured.find? fun b => b.running = l.running with
  | none => rfl
  | some b => simpa using List.find?_some hb

theorem nodup_pushNew {out : List CurveRow} (h : (out.map CurveRow.running).Nodup)
    (b : CurveRow) : ((pushNew out b).map CurveRow.running).Nodup := by
  unfold pushNew
  split
  case isTrue => exact h
  case isFalse hnew =>
    rw [List.map_append, List.map_singleton]
    refine List.Nodup.append h (List.nodup_singleton _) ?_
    intro n hn hb
    obtain ⟨r, hr, rfl⟩ := List.mem_map.mp hn
    exact hnew (List.any_eq_true.mpr ⟨r, hr, by simpa using hb⟩)

theorem mem_pushNew {out : List CurveRow} {b r : CurveRow} (h : r ∈ pushNew out b) :
    r ∈ out ∨ r = b := by
  unfold pushNew at h
  split at h
  · exact .inl h
  · simpa using h

/-- Adding the rows of new levels keeps one row for each level. -/
theorem nodup_foldl_pushNew (measured : List CurveRow) {out : List CurveRow}
    (h : (out.map CurveRow.running).Nodup) :
    ((measured.foldl pushNew out).map CurveRow.running).Nodup := by
  induction measured generalizing out with
  | nil => exact h
  | cons b measured ih => exact ih (nodup_pushNew h b)

theorem mem_foldl_pushNew {measured out : List CurveRow} {r : CurveRow}
    (h : r ∈ measured.foldl pushNew out) : r ∈ out ∨ r ∈ measured := by
  induction measured generalizing out with
  | nil => exact .inl h
  | cons b measured ih =>
    rcases ih h with h | h
    · rcases mem_pushNew h with h | rfl
      · exact .inl h
      · exact .inr List.mem_cons_self
    · exact .inr (List.mem_cons_of_mem _ h)

/-- The rows with those of a benchmark on them.
SOURCE: lss-core/src/bench.rs:1258-1274 -/
def MeasuredLevels.withBench (levels : MeasuredLevels) (decode : List DecodeCell)
    (hdecode : ∀ c ∈ decode, 0 < c.concurrency) : MeasuredLevels where
  rows := mergeCurve levels.rows decode
  distinct := by
    have hmap : ((levels.rows.map (layOver (curveRows decode))).map CurveRow.running).Nodup := by
      rw [List.map_map, show CurveRow.running ∘ layOver (curveRows decode) = CurveRow.running from
        funext (running_layOver _)]
      exact levels.distinct
    exact ((List.perm_insertionSort _ _).map _).nodup_iff.mpr (nodup_foldl_pushNew _ hmap)
  counted := by
    intro r hr
    rcases mem_foldl_pushNew ((List.mem_insertionSort _).mp hr) with hr | hr
    · obtain ⟨l, hl, rfl⟩ := List.mem_map.mp hr
      rw [running_layOver]
      exact levels.counted l hl
    · obtain ⟨c, hc, rfl⟩ := List.mem_map.mp hr
      exact hdecode c (List.mem_of_mem_filter hc)

/-! ## The points of a curve -/

/-- A level that counts as evidence, with the total speed that was measured at it. -/
def Evidence (curve : List CurveRow) (users : ℕ) (total : ℚ) : Prop :=
  ∃ r ∈ curve, qualifies r (liveSamples curve) ∧ r.running = users ∧ r.tokS = some total

theorem mem_curvePoints {curve : List CurveRow} {users : ℕ} {total : ℚ} :
    (users, total) ∈ curvePoints curve ↔ Evidence curve users total := by
  unfold curvePoints Evidence
  constructor
  · intro h
    obtain ⟨r, hr, hpoint⟩ := List.mem_filterMap.mp h
    obtain ⟨hmem, hq⟩ := List.mem_filter.mp hr
    obtain ⟨t, ht, heq⟩ := Option.map_eq_some_iff.mp hpoint
    cases heq
    exact ⟨r, hmem, hq, rfl, ht⟩
  · rintro ⟨r, hmem, hq, rfl, ht⟩
    exact List.mem_filterMap.mpr ⟨r, List.mem_filter.mpr ⟨hmem, hq⟩, by rw [ht]; rfl⟩

/-- The levels of the points are levels of the curve, in the curve's order. -/
theorem map_curvePoints_sublist (curve : List CurveRow) :
    ((curvePoints curve).map Prod.fst).Sublist (curve.map CurveRow.running) := by
  have hpoints : ∀ rows : List CurveRow,
      ((rows.filterMap fun r => r.tokS.map fun t => (r.running, t)).map Prod.fst).Sublist
        (rows.map CurveRow.running) := by
    intro rows
    induction rows with
    | nil => exact List.Sublist.refl _
    | cons r rows ih =>
      cases ht : r.tokS with
      | none =>
        rw [List.filterMap_cons_none (by rw [ht]; rfl)]
        exact ih.cons _
      | some t =>
        rw [List.filterMap_cons_some (by rw [ht]; rfl)]
        exact ih.cons_cons _
  exact (hpoints _).trans (List.filter_sublist.map _)

/-- Where no level occurs twice, the search sees each point with a speed once, by level. -/
theorem saturationPoints_spec {rows : List (ℕ × ℚ)} (distinct : (rows.map Prod.fst).Nodup) :
    ((saturationPoints rows).Pairwise fun p q => p.1 < q.1) ∧
      ∀ p, p ∈ saturationPoints rows ↔ p ∈ rows ∧ 0 < p.1 ∧ 0 < p.2 := by
  let kept := rows.filter fun p => 0 < p.1 ∧ 0 < p.2
  let sorted := kept.insertionSort fun p q => p.1 ≤ q.1
  have hperm : sorted.Perm kept := List.perm_insertionSort _ _
  have hnodup : (sorted.map Prod.fst).Nodup :=
    (hperm.map _).nodup_iff.mpr (distinct.sublist (List.filter_sublist.map _))
  have hle : sorted.Pairwise fun p q => p.1 ≤ q.1 := by
    have htotal : Std.Total fun p q : ℕ × ℚ => p.1 ≤ q.1 := ⟨fun p q => Nat.le_total p.1 q.1⟩
    have htrans : IsTrans (ℕ × ℚ) fun p q => p.1 ≤ q.1 := ⟨fun _ _ _ => Nat.le_trans⟩
    exact List.pairwise_insertionSort _ _
  have hlt : sorted.Pairwise fun p q => p.1 < q.1 :=
    (hle.and (List.pairwise_map.mp hnodup)).imp fun h => lt_of_le_of_ne h.1 h.2
  have heq : saturationPoints rows = sorted :=
    List.destutter_of_isChain _ _ (hlt.imp fun h => Nat.ne_of_lt h).isChain
  rw [heq]
  refine ⟨hlt, fun p => ?_⟩
  rw [hperm.mem_iff, List.mem_filter]
  simp

/-! ## The search -/

/-- A later point is faster by more than the noise. -/
def Beaten (p later : ℕ × ℚ) : Prop := p.2 * (1 + noise) < later.2

instance : DecidableRel Beaten := fun p later =>
  inferInstanceAs (Decidable (p.2 * (1 + noise) < later.2))

/-- The loop of the source leaves the last point out, which nothing behind it can beat. -/
theorem firstUnbeaten_of_firstPlateau {pts : List (ℕ × ℚ)} {p : ℕ × ℚ}
    (h : firstPlateau pts = some p) : firstUnbeaten Beaten pts = some p := by
  induction pts with
  | nil => cases h
  | cons x rest ih =>
    cases rest with
    | nil => cases h
    | cons q rest =>
      have hall : ((q :: rest).all fun later => later.2 ≤ x.2 * (1 + noise)) = true ↔
          ¬ ∃ y ∈ q :: rest, Beaten x y := by
        rw [List.all_eq_true]
        simp only [decide_eq_true_eq, Beaten, not_exists, not_and, not_lt]
      rw [firstPlateau] at h
      rw [firstUnbeaten]
      split at h
      case isTrue hle =>
        rw [if_neg (hall.mp hle)]
        exact h
      case isFalse hbeaten =>
        rw [if_pos (not_not.mp fun hn => hbeaten (hall.mpr hn))]
        exact ih h

/-- What the search over the points finds. -/
theorem saturation_after {rows : List (ℕ × ℚ)} {users : ℕ} {total : ℚ} {fromBench : Bool}
    (h : saturation rows = .after users total fromBench) :
    ∃ t, firstUnbeaten Beaten (saturationPoints rows) = some (users, t) ∧ total = round1 t := by
  unfold saturation at h
  dsimp only at h
  split at h
  · cases h
  · cases hp : firstPlateau (saturationPoints rows) with
    | none =>
      rw [hp] at h
      cases hlast : (saturationPoints rows).getLast? with
      | none =>
        rw [hlast] at h
        cases h
      | some p =>
        rw [hlast] at h
        cases h
    | some p =>
      rw [hp] at h
      cases h
      exact ⟨p.2, firstUnbeaten_of_firstPlateau hp, rfl⟩

/-- What is left of the search's answer once everything that was seen has been asked. -/
theorem saturationOf_after {curve : List CurveRow} {peak : Option ℚ} {users : ℕ} {total : ℚ}
    {fromBench : Bool} (h : saturationOf curve peak = .after users total fromBench) :
    (∃ b, saturation (curvePoints curve) = .after users total b) ∧
      (∀ r ∈ curve, users < r.running → ∀ t, r.tokS = some t → t ≤ total * (1 + noise)) ∧
      ∀ p, peak = some p → p ≤ total * (1 + noise) := by
  unfold saturationOf at h
  cases hs : saturation (curvePoints curve) with
  | notEnough =>
    rw [hs] at h
    cases h
  | stillGrowing n t =>
    rw [hs] at h
    cases h
  | after n t b =>
    rw [hs] at h
    dsimp only at h
    split at h
    · cases h
    case isFalse hveto =>
      cases h
      rw [Bool.not_eq_true, Bool.or_eq_false_iff, List.any_eq_false] at hveto
      refine ⟨⟨b, rfl⟩, ?_, ?_⟩
      · intro r hr hlt t ht
        have hmem : t ∈ (curve.filter fun r => users < r.running).filterMap CurveRow.tokS :=
          List.mem_filterMap.mpr ⟨r, List.mem_filter.mpr ⟨hr, by simpa using hlt⟩, ht⟩
        simpa using hveto.1 t hmem
      · rintro p rfl
        simpa using hveto.2

/-! ## The point that is named -/

/-- No level that counts as evidence above `users`, and no speed on record, is more than the
noise above `total`. -/
def Settled (curve : List CurveRow) (peak : Option ℚ) (users : ℕ) (total : ℚ) : Prop :=
  (∀ n t, Evidence curve n t → users < n → t ≤ total * (1 + noise)) ∧
    ∀ p, peak = some p → p ≤ total * (1 + noise)

/-- The level that is named as the end of the growth counts as evidence and is settled at the
speed that is named with it, its own to a tenth. It is also settled among the levels at its own
speed, and no lower level that counts as evidence is settled at its own. -/
theorem saturation_is_a_plateau (levels : MeasuredLevels) (peak : Option ℚ) (users : ℕ)
    (total : ℚ) (fromBench : Bool)
    (h : saturationOf levels.rows peak = .after users total fromBench) :
    ∃ measured, Evidence levels.rows users measured ∧ total = round1 measured ∧
      Settled levels.rows peak users total ∧ Settled levels.rows none users measured ∧
      ∀ n t, Evidence levels.rows n t → n < users → ¬ Settled levels.rows peak n t := by
  obtain ⟨⟨b, hsat⟩, habove, hpeak⟩ := saturationOf_after h
  obtain ⟨measured, hfirst, htotal⟩ := saturation_after hsat
  have hdistinct : ((curvePoints levels.rows).map Prod.fst).Nodup :=
    levels.distinct.sublist (map_curvePoints_sublist _)
  obtain ⟨hsorted, hmem⟩ := saturationPoints_spec hdistinct
  obtain ⟨hpoint, -, hpositive⟩ := (hmem _).mp (mem_of_firstUnbeaten Beaten hfirst)
  refine ⟨measured, mem_curvePoints.mp hpoint, htotal, ⟨?_, hpeak⟩, ⟨?_, ?_⟩, ?_⟩
  · rintro n t ⟨r, hr, -, rfl, ht⟩ hlt
    exact habove r hr hlt t ht
  · intro n t hn hlt
    by_cases ht : 0 < t
    · have hhigh : (n, t) ∈ saturationPoints (curvePoints levels.rows) :=
        (hmem _).mpr ⟨mem_curvePoints.mpr hn, (Nat.zero_le _).trans_lt hlt, ht⟩
      exact not_lt.mp (not_beaten_of_firstUnbeaten Beaten hsorted hfirst hhigh hlt)
    · have hnoise : 0 ≤ measured * (1 + noise) :=
        mul_nonneg hpositive.le (by norm_num [noise])
      exact (not_lt.mp ht).trans hnoise
  · rintro p hp
    cases hp
  · rintro n t hn hlt ⟨hsettled, -⟩
    have hcounted : 0 < n := by
      obtain ⟨r, hr, -, rfl, -⟩ := hn
      exact levels.counted r hr
    by_cases ht : 0 < t
    · -- the search passed over this level, so a point above it beats it
      have hlow : (n, t) ∈ saturationPoints (curvePoints levels.rows) :=
        (hmem _).mpr ⟨mem_curvePoints.mpr hn, hcounted, ht⟩
      obtain ⟨⟨m, s⟩, hs, hms, hbeaten⟩ :=
        beaten_of_lt_firstUnbeaten Beaten hsorted hfirst hlow hlt
      exact absurd (hsettled m s (mem_curvePoints.mp ((hmem _).mp hs).1) hms) (not_le.mpr hbeaten)
    · -- a level without any speed is beaten by the one that is named
      have hle := hsettled users measured (mem_curvePoints.mp hpoint) hlt
      have hnoise : t * (1 + noise) ≤ 0 :=
        mul_nonpos_of_nonpos_of_nonneg (not_lt.mp ht) (by norm_num [noise])
      exact absurd (hle.trans hnoise) (not_le.mpr hpositive)

/-- A curve with a dip in it and a level that nobody ran. -/
def dippedCurve : MeasuredLevels where
  rows :=
    [{ running := 1, samples := 1, tokS := some 100, source := "bench" },
      { running := 2, samples := 1, tokS := some 90, source := "bench" },
      { running := 3, source := "live" },
      { running := 4, samples := 1, tokS := some 200, source := "bench" },
      { running := 8, samples := 1, tokS := some 206, source := "bench" }]
  distinct := by decide
  counted := by decide

theorem dipped_curve_settles_at_four :
    saturationOf dippedCurve.rows (some 206) = .after 4 200 true ∧
      ∃ measured, Evidence dippedCurve.rows 4 measured ∧ 200 = round1 measured ∧
        Settled dippedCurve.rows (some 206) 4 200 ∧ Settled dippedCurve.rows none 4 measured ∧
        ∀ n t, Evidence dippedCurve.rows n t → n < 4 → ¬ Settled dippedCurve.rows (some 206) n t :=
  have h : saturationOf dippedCurve.rows (some 206) = .after 4 200 true := by decide +kernel
  ⟨h, saturation_is_a_plateau dippedCurve (some 206) 4 200 true h⟩

end Lss.Analysis.SaturationPoint
