import Mathlib.Algebra.BigOperators.Ring.List
import Lss.Analysis.PointNames
import Lss.Analysis.Readings
import Lss.Analysis.SampleRows

/-!
# The energy in the rollup

The rows of `sum_energy_j` over a range of closed buckets add up to the energies of the steps
that end in the range and that the rollup sees: steps between neighbouring stored samples that
both carry metrics.
-/

set_option autoImplicit false

namespace Lss.Analysis.EnergyRows

open Lss.Library.Buckets Lss.Library.Steps Lss.Model Lss.Analysis.PointNames
  Lss.Analysis.Readings Lss.Analysis.RollupRows Lss.Analysis.SampleRows

/-! ## The energy of a step -/

/-- Whether both samples of a step carry the engine's metrics. -/
def metered (p : Sample × Sample) : Bool := p.1.metrics.isSome && p.2.metrics.isSome

/-- The energy of a step as the rollup counts it. -/
def seenJoules (p : Sample × Sample) : ℚ := if metered p then joules p else 0

theorem values_of_plain {points : List (String × ℚ)} (h : Plain points) :
    values "sum_energy_j" points = [] := by
  unfold values
  rw [List.map_eq_nil_iff, List.filter_eq_nil_iff]
  intro p hp heq
  apply h p hp
  rw [eq_of_beq heq]
  decide

theorem sum_values_energyPoints {p s : Sample} (m : ServeMetrics) (h : p.ts < s.ts) :
    (values "sum_energy_j" (energyPoints p s m)).sum = joules (p, s) := by
  unfold energyPoints joules
  cases p.watts with
  | none => rfl
  | some a =>
      cases s.watts with
      | none => rfl
      | some b =>
          dsimp only
          have hgap : Gap p.ts s.ts ↔ ¬ s.ts - p.ts ≤ 30 := by
            have hmax : maxStepSecs = 30 := rfl
            unfold Gap
            rw [hmax]
            omega
          by_cases hnear : s.ts - p.ts ≤ 30
          · rw [if_pos hnear, if_neg (by rw [hgap]; exact not_not.2 hnear), values_cons,
              if_pos rfl]
            unfold pointIf
            split <;> simp [values, stepJoules]
          · rw [if_neg hnear, if_pos (hgap.2 hnear)]
            rfl

/-- The point of the energy of a step is the energy the rollup sees. -/
theorem sum_values_step {p s : Sample} (h : p.ts < s.ts) :
    (values "sum_energy_j" (samplePoints (some p) s)).sum = seenJoules (p, s) := by
  rw [values_samplePoints, values_of_plain (plain_headPoints s),
    values_of_plain (plain_tailPoints s), List.append_nil, List.nil_append]
  show (values "sum_energy_j" (stepPoints p s)).sum = _
  unfold stepPoints seenJoules metered
  cases p.metrics with
  | none => rfl
  | some pm =>
      cases s.metrics with
      | none => rfl
      | some m =>
          simp only [Option.isSome_some, Bool.and_self, if_true]
          obtain ⟨points, hplain, heq⟩ := plain_counterPoints p s pm m
          split
          · rw [heq, values_append, values_of_plain hplain, List.nil_append,
              sum_values_energyPoints m h]
          · next hfar =>
              have hgap : Gap p.ts s.ts := by
                have hmax : maxStepSecs = 30 := rfl
                unfold Gap
                rw [hmax]
                omega
              rw [joules_of_gap hgap]
              rfl

theorem sum_values_first (s : Sample) :
    (values "sum_energy_j" (samplePoints none s)).sum = 0 := by
  rw [values_samplePoints, values_of_plain (plain_headPoints s),
    values_of_plain (plain_tailPoints s)]
  rfl

/-! ## The rows of a range -/

/-- Adding up what a list has at each start of a range counts what lies in the range. -/
theorem sum_range_ite (b start : ℤ) (v : ℚ) (n : ℕ) :
    ((List.range n).map fun i : ℕ => if b = start + i then v else 0).sum =
      if start ≤ b ∧ b < start + n then v else 0 := by
  induction n with
  | zero =>
      rw [if_neg (by simp)]
      rfl
  | succ n ih =>
      rw [List.range_succ, List.map_append, List.sum_append, ih]
      simp only [List.map_cons, List.map_nil, List.sum_cons, List.sum_nil, add_zero]
      by_cases hn : b = start + n
      · rw [if_neg (by omega), if_pos hn, if_pos (by push_cast; omega), zero_add]
      · rw [if_neg hn, add_zero]
        congr 1
        rw [eq_iff_iff]
        push_cast
        omega

/-- A step ends in a range of time. -/
def EndsIn (start stop : ℤ) (p : Sample × Sample) : Prop := start ≤ p.2.ts ∧ p.2.ts < stop

instance (start stop : ℤ) (p : Sample × Sample) : Decidable (EndsIn start stop p) :=
  inferInstanceAs (Decidable (_ ∧ _))

variable {res start stop : ℤ}

/-- What the buckets of a range hold of the energy is what the steps have that end in it. -/
theorem sum_samplesHeld (hres : 0 < res) (hstart : res ∣ start) (hstop : res ∣ stop)
    {prev : Option Sample} {samples : List Sample}
    (increasing : Increasing (prev.toList ++ samples)) :
    ((List.range (stop - start).toNat).map fun i : ℕ =>
        (samplesHeld res (start + i) "sum_energy_j" prev samples).sum).sum =
      (((steps (prev.toList ++ samples)).filter fun p => decide (EndsIn start stop p)).map
        seenJoules).sum := by
  induction samples generalizing prev with
  | nil =>
      have hsteps : steps (prev.toList ++ []) = [] := by cases prev <;> rfl
      rw [hsteps]
      simp [samplesHeld]
  | cons s samples ih =>
      have hbucket : ∀ v : ℚ,
          ((List.range (stop - start).toNat).map fun i : ℕ =>
            if bucket res s.ts = start + i then v else 0).sum =
          if start ≤ s.ts ∧ s.ts < stop then v else 0 := by
        intro v
        rw [sum_range_ite]
        congr 1
        rw [eq_iff_iff]
        have hlow := le_bucket_iff hres hstart s.ts
        have hhigh := le_bucket_iff hres hstop s.ts
        omega
      have hcons : ∀ i : ℕ,
          (samplesHeld res (start + i) "sum_energy_j" prev (s :: samples)).sum =
            (if bucket res s.ts = start + i then
              (values "sum_energy_j" (samplePoints prev s)).sum else 0) +
            (samplesHeld res (start + i) "sum_energy_j" (some s) samples).sum := by
        intro i
        rw [samplesHeld, List.sum_append]
        congr 1
        split <;> rfl
      have hrest : Increasing ((some s).toList ++ samples) := increasing.of_append.2.1
      have hsplit := List.sum_map_add (l := List.range (stop - start).toNat)
        (f := fun i : ℕ => if bucket res s.ts = start + i then
          (values "sum_energy_j" (samplePoints prev s)).sum else 0)
        (g := fun i : ℕ => (samplesHeld res (start + i) "sum_energy_j" (some s) samples).sum)
      rw [List.map_congr_left fun i _ => hcons i, hsplit, hbucket, ih hrest]
      cases prev with
      | none =>
          rw [sum_values_first, ite_self, zero_add]
          rfl
      | some p =>
          have hlt : p.ts < s.ts := increasing.of_append.2.2 p (by simp) s (by simp)
          have hsteps : steps ((some p).toList ++ s :: samples) =
              (p, s) :: steps ((some s).toList ++ samples) := rfl
          rw [sum_values_step hlt, hsteps]
          by_cases hin : start ≤ s.ts ∧ s.ts < stop
          · have hends : EndsIn start stop (p, s) := hin
            rw [if_pos hin, List.filter_cons_of_pos (by simpa using hends), List.map_cons,
              List.sum_cons]
          · have hout : ¬ EndsIn start stop (p, s) := hin
            rw [if_neg hin, List.filter_cons_of_neg (by simpa using hout), zero_add]

/-- A range made of whole buckets that are closed. -/
structure ClosedRange (res start stop : ℤ) (stored : List Sample) : Prop where
  start_dvd : res ∣ start
  stop_dvd : res ∣ stop
  closed : ∀ b, res ∣ b → start ≤ b → b < stop → Closed Sample.ts res b stored

/-- The row of the energy of a bucket, once it is closed. -/
theorem energy_row {fs : List Feed} (increasing : Increasing (fs.map Feed.sample))
    (hres : res ∈ [res1m, res10m]) {b : ℤ}
    (hclosed : res ∣ b → Closed Sample.ts res b (fs.map Feed.sample)) :
    (((({} : Pipeline).pushAll {} fs).2.rollup res "sum_energy_j" b).map
        RollupRow.agg).elim 0 Agg.sum =
      (samplesHeld res b "sum_energy_j" none (fs.map Feed.sample)).sum := by
  have hrow : (({} : Pipeline).pushAll {} fs).2.rollup res "sum_energy_j" b =
      rowOf (samplesHeld res b "sum_energy_j" none (fs.map Feed.sample)) := by
    rw [row_eq increasing hres (by decide)]
    split
    · rfl
    · next hopen =>
        -- not closed, so no start of a bucket: nothing is in it
        have hempty : samplesHeld res b "sum_energy_j" none (fs.map Feed.sample) = [] := by
          apply samplesHeld_eq_nil
          rintro s _ rfl
          exact hopen (hclosed (bucket_dvd _))
        rw [hempty]
        rfl
  rw [hrow, rowOf_agg]
  cases hagg : aggOf (samplesHeld res b "sum_energy_j" none (fs.map Feed.sample)) with
  | none =>
      rw [aggOf_eq_none.1 hagg]
      rfl
  | some a => exact (sum_and_n_of_aggOf hagg).1

theorem sum_filterMap {α β : Type} (f : α → Option β) (v : β → ℚ) (xs : List α) :
    ((xs.filterMap f).map v).sum = (xs.map fun x => (f x).elim 0 v).sum := by
  induction xs with
  | nil => rfl
  | cons x xs ih =>
      rw [List.filterMap_cons, List.map_cons, List.sum_cons, ← ih]
      cases f x with
      | none => rw [Option.elim_none, zero_add]
      | some y => rw [List.map_cons, List.sum_cons, Option.elim_some]

/-- The energy of a range of closed buckets is that of the steps that end in the range and that
the rollup sees. -/
theorem sum_energyKwhBuckets {fs : List Feed} (increasing : Increasing (fs.map Feed.sample))
    (hres : res ∈ [res1m, res10m]) (range : ClosedRange res start stop (fs.map Feed.sample)) :
    ((energyKwhBuckets (({} : Pipeline).pushAll {} fs).2 res start stop).map Prod.snd).sum =
      (((steps (fs.map Feed.sample)).filter fun p => decide (EndsIn start stop p)).map
        seenJoules).sum / 3600000 := by
  have hpos := pos_of_mem hres
  have hfirst : Increasing ((none : Option Sample).toList ++ fs.map Feed.sample) := increasing
  have hheld := sum_samplesHeld hpos range.start_dvd range.stop_dvd hfirst
  rw [Option.toList_none, List.nil_append] at hheld
  rw [← hheld]
  unfold energyKwhBuckets RollupDb.rollupRows
  rw [List.map_map, sum_filterMap, div_eq_mul_inv, ← List.sum_map_mul_right]
  congr 1
  apply List.map_congr_left
  intro i hi
  rw [List.mem_range] at hi
  rw [← energy_row increasing hres (b := start + i)
    (fun hdvd => range.closed _ hdvd (by omega) (by omega))]
  cases (({} : Pipeline).pushAll {} fs).2.rollup res "sum_energy_j" (start + i) with
  | none => exact (zero_mul _).symm
  | some row => exact div_eq_mul_inv _ _

end Lss.Analysis.EnergyRows
