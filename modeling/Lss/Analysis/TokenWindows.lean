import Lss.Analysis.EnergyRows
import Lss.Model.TokenWindows

/-!
# The windows of tokens grow

The hour, the day and the week add up the same minutes, each more of them than the one before.
The month adds up ten minutes, and of the ten minutes that are not over it has nothing, while the
others already have the minutes that are: it is no less than the week exactly when what it has
from before the week makes up for them.
-/

set_option autoImplicit false

namespace Lss.Analysis.TokenWindows

open Lss.Library.Buckets Lss.Library.Steps Lss.Model Lss.Analysis.PointNames
  Lss.Analysis.RollupRows Lss.Analysis.SampleRows Lss.Analysis.EnergyRows

/-! ## The counted points -/

/-- The metrics of a window. -/
def counted : List String := ["tok_gen", "tok_prompt", "tok_cached", "sum_requests"]

theorem values_of_named {name : String} {kind : String → Prop} {points : List (String × ℚ)}
    (h : Named kind points) (other : ¬kind name) : values name points = [] := by
  unfold values
  rw [List.map_eq_nil_iff, List.filter_eq_nil_iff]
  intro p hp same
  have named := h p hp
  rw [eq_of_beq same] at named
  exact other named

/-- The counted points of a sample are those of the step that ends at it. -/
theorem values_counted {name : String} (h : name ∈ counted) (prev : Option Sample) (s : Sample) :
    values name (samplePoints prev s) = values name (prev.elim [] fun p => stepPoints p s) := by
  have not_head : ∀ n ∈ counted, n ∉ headNames := by decide
  have not_tail : ∀ n ∈ counted, n ∉ tailNames ∧ n.toList.head? ≠ some 'u' ∧
      n.toList.head? ≠ some 'g' := by decide
  have other : ¬TailName name := by
    rintro (fixed | user | gpu)
    · exact (not_tail name h).1 fixed
    · exact (not_tail name h).2.1 user
    · exact (not_tail name h).2.2 gpu
  rw [values_samplePoints, values_of_named (headPoints_names s) (not_head name h),
    values_of_named (tailPoints_names s) other, List.nil_append, List.append_nil]

/-- A point that takes nothing away where it is counted. -/
def Fair (p : String × ℚ) : Prop := p.1 ∈ counted → 0 ≤ p.2

theorem fair_other {name : String} (h : name ∉ counted) (v : ℚ) : Fair (name, v) :=
  fun hmem => absurd hmem h

theorem fair_pointIf {b : Bool} {name : String} {v : ℚ} (h : b = true → Fair (name, v)) :
    ∀ p ∈ pointIf b name v, Fair p := by
  unfold pointIf
  cases b with
  | false => exact fun p hp => nomatch hp
  | true =>
      intro p hp
      rw [List.mem_singleton.mp hp]
      exact h rfl

theorem fair_ite {c : Prop} [Decidable c] {points : List (String × ℚ)}
    (h : ∀ p ∈ points, Fair p) : ∀ p ∈ (if c then points else []), Fair p := by
  split
  · exact h
  · exact fun p hp => nomatch hp

/-- What a counter grew by is not negative. -/
theorem fair_grownPoint (same : Bool) (name : String) (now before : ℚ) :
    ∀ p ∈ grownPoint same name now before, Fair p := by
  apply fair_pointIf
  intro h _
  rw [Bool.and_eq_true, decide_eq_true_eq] at h
  exact sub_nonneg.mpr h.2

theorem fair_energyPoints (p s : Sample) (m : ServeMetrics) :
    ∀ q ∈ energyPoints p s m, Fair q := by
  unfold energyPoints
  cases p.watts with
  | none => exact fun q hq => nomatch hq
  | some a =>
      cases s.watts with
      | none => exact fun q hq => nomatch hq
      | some b =>
          refine fair_ite (List.forall_mem_cons.mpr ⟨fair_other (by decide) _, ?_⟩)
          exact fair_pointIf fun _ => fair_other (by decide) _

theorem fair_stepPoints (p s : Sample) : ∀ q ∈ stepPoints p s, Fair q := by
  unfold stepPoints
  split
  · rename_i pm m _ _
    refine fair_ite ?_
    unfold counterPoints
    dsimp only
    simp only [List.forall_mem_append]
    refine ⟨⟨⟨⟨⟨⟨⟨⟨?_, ?_⟩, ?_⟩, ?_⟩, ?_⟩, ?_⟩, ?_⟩, ?_⟩, fair_energyPoints p s m⟩
    · refine fair_ite (List.forall_mem_append.mpr ⟨?_, ?_⟩)
      · exact fair_pointIf fun _ => fair_other (by decide) _
      · exact fair_pointIf fun _ => fair_other (by decide) _
    · exact fair_ite (fair_pointIf fun _ => fair_other (by decide) _)
    · exact fair_ite (List.forall_mem_append.mpr
        ⟨fair_grownPoint _ _ _ _, fair_grownPoint _ _ _ _⟩)
    · exact fair_ite (fair_grownPoint _ _ _ _)
    · refine fair_ite (List.forall_mem_cons.mpr ⟨fair_other (by decide) _, ?_⟩)
      exact fair_pointIf fun _ => fair_other (by decide) _
    · exact fair_grownPoint _ _ _ _
    · exact fair_ite (fair_grownPoint _ _ _ _)
    · refine fair_ite (List.forall_mem_cons.mpr ⟨fair_other (by decide) _, ?_⟩)
      exact List.forall_mem_singleton.mpr (fair_other (by decide) _)
  · exact fun q hq => nomatch hq

/-- What a step counts of a metric. -/
def grown (name : String) (p : Sample × Sample) : ℚ := (values name (stepPoints p.1 p.2)).sum

theorem grown_nonneg {name : String} (h : name ∈ counted) (p : Sample × Sample) :
    0 ≤ grown name p := by
  apply List.sum_nonneg
  intro v hv
  obtain ⟨q, hq, rfl⟩ := List.mem_map.mp hv
  obtain ⟨hq, same⟩ := List.mem_filter.mp hq
  apply fair_stepPoints p.1 p.2 q hq
  rw [eq_of_beq same]
  exact h

/-! ## The sums of rows -/

/-- What the buckets of a range that satisfy a condition hold of a metric is what the steps count
that end in one of them. -/
theorem sum_held {name : String} (h : name ∈ counted) (res start : ℤ) (n : ℕ) (keep : ℤ → Prop)
    [DecidablePred keep] (prev : Option Sample) (samples : List Sample) :
    ((List.range n).map fun i : ℕ =>
        if keep (start + i) then (samplesHeld res (start + i) name prev samples).sum else 0).sum =
      (((steps (prev.toList ++ samples)).filter fun p => decide ((start ≤ bucket res p.2.ts ∧
        bucket res p.2.ts < start + n) ∧ keep (bucket res p.2.ts))).map (grown name)).sum := by
  induction samples generalizing prev with
  | nil =>
      have no_steps : steps (prev.toList ++ []) = [] := by cases prev <;> rfl
      rw [no_steps]
      simp [samplesHeld]
  | cons s samples ih =>
      have split : ∀ i : ℕ,
          (if keep (start + i) then (samplesHeld res (start + i) name prev (s :: samples)).sum
            else 0) =
          (if bucket res s.ts = start + i then
            if keep (bucket res s.ts) then (values name (samplePoints prev s)).sum else 0
            else 0) +
          (if keep (start + i) then (samplesHeld res (start + i) name (some s) samples).sum
            else 0) := by
        intro i
        rw [samplesHeld, List.sum_append]
        by_cases here : bucket res s.ts = start + i
        · rw [if_pos here, if_pos here, here]
          split
          · rfl
          · exact (zero_add 0).symm
        · rw [if_neg here, if_neg here, List.sum_nil, zero_add, zero_add]
      have added := List.sum_map_add (l := List.range n)
        (f := fun i : ℕ => if bucket res s.ts = start + i then
          if keep (bucket res s.ts) then (values name (samplePoints prev s)).sum else 0 else 0)
        (g := fun i : ℕ => if keep (start + i) then
          (samplesHeld res (start + i) name (some s) samples).sum else 0)
      rw [List.map_congr_left fun i _ => split i, added, sum_range_ite, ih (some s),
        values_counted h]
      cases prev with
      | none =>
          rw [Option.elim_none]
          show (if _ then (if _ then (0 : ℚ) else 0) else 0) + _ = _
          rw [ite_self, ite_self, zero_add]
          rfl
      | some p =>
          have cons : steps ((some p).toList ++ s :: samples) =
              (p, s) :: steps ((some s).toList ++ samples) := rfl
          rw [cons, List.filter_cons, Option.elim_some]
          by_cases inside : start ≤ bucket res s.ts ∧ bucket res s.ts < start + n
          · by_cases kept : keep (bucket res s.ts)
            · rw [if_pos inside, if_pos kept, if_pos (decide_eq_true ⟨inside, kept⟩),
                List.map_cons, List.sum_cons]
              rfl
            · rw [if_pos inside, if_neg kept, zero_add, if_neg]
              intro both
              exact kept (of_decide_eq_true both).2
          · rw [if_neg inside, zero_add, if_neg]
            intro both
            exact inside (of_decide_eq_true both).1

/-! ## What the steps count -/

section Counts

variable (name : String) (samples : List Sample)

/-- What the steps of a kind count of a metric. -/
def counts (keep : Sample × Sample → Prop) [DecidablePred keep] : ℚ :=
  (((steps samples).filter fun p => decide (keep p)).map (grown name)).sum

variable {name samples} {keep keep' : Sample × Sample → Prop} [DecidablePred keep]
  [DecidablePred keep']

theorem counts_congr (h : ∀ p ∈ steps samples, keep p ↔ keep' p) :
    counts name samples keep = counts name samples keep' := by
  unfold counts
  congr 2
  apply List.filter_congr
  intro p hp
  rw [decide_eq_decide]
  exact h p hp

variable (keep keep') in
theorem counts_add : counts name samples keep =
    counts name samples (fun p => keep p ∧ keep' p) +
      counts name samples (fun p => keep p ∧ ¬keep' p) := by
  have parts := sum_filter_add (grown name) keep' ((steps samples).filter fun p => decide (keep p))
  rw [List.filter_filter, List.filter_filter] at parts
  unfold counts
  rw [parts]
  congr 4
  · funext p
    rw [← Bool.decide_and, decide_eq_decide, and_comm]
  · funext p
    rw [← Bool.decide_and, decide_eq_decide, and_comm]

theorem counts_nonneg (h : name ∈ counted) : 0 ≤ counts name samples keep := by
  apply List.sum_nonneg
  intro v hv
  obtain ⟨p, _, rfl⟩ := List.mem_map.mp hv
  exact grown_nonneg h p

theorem counts_mono (h : name ∈ counted) (imp : ∀ p ∈ steps samples, keep p → keep' p) :
    counts name samples keep ≤ counts name samples keep' := by
  have inside : counts name samples (fun p => keep' p ∧ keep p) = counts name samples keep :=
    counts_congr fun p hp => ⟨And.right, fun hk => ⟨imp p hp hk, hk⟩⟩
  have rest : 0 ≤ counts name samples (fun p => keep' p ∧ ¬keep p) := counts_nonneg h
  rw [counts_add keep' keep, inside]
  exact le_add_of_nonneg_right rest

/-- Of two kinds, one counts no more than the other when what it has alone does. -/
theorem counts_le_iff : counts name samples keep ≤ counts name samples keep' ↔
    counts name samples (fun p => keep p ∧ ¬keep' p) ≤
      counts name samples (fun p => keep' p ∧ ¬keep p) := by
  have both : counts name samples (fun p => keep' p ∧ keep p) =
      counts name samples (fun p => keep p ∧ keep' p) := counts_congr fun _ _ => and_comm
  rw [counts_add keep keep', counts_add keep' keep, both]
  exact add_le_add_iff_left _

end Counts

/-- A step ends in a bucket of a range that is over. -/
def InRows (res start stop : ℤ) (samples : List Sample) (p : Sample × Sample) : Prop :=
  (start ≤ bucket res p.2.ts ∧ bucket res p.2.ts < stop) ∧
    Closed Sample.ts res (bucket res p.2.ts) samples

instance (res start stop : ℤ) (samples : List Sample) :
    DecidablePred (InRows res start stop samples) := fun _ => inferInstanceAs (Decidable (_ ∧ _))

section Store

variable {fs : List Feed}

/-- A metric of a tier over a range is what the steps count that end in its closed buckets. -/
theorem rollupSum_eq (increasing : Increasing (fs.map Feed.sample)) {res : ℤ}
    (hres : res ∈ [res1m, res10m]) {name : String} (h : name ∈ counted) {start stop : ℤ}
    (le : start ≤ stop) :
    (({} : Pipeline).pushAll {} fs).2.rollupSum res name start stop =
      counts name (fs.map Feed.sample) (InRows res start stop (fs.map Feed.sample)) := by
  have not_latency : ∀ n ∈ counted, n ∉ latencyNames := by decide
  have length : start + ((stop - start).toNat : ℤ) = stop := by omega
  have held := sum_held h res start (stop - start).toNat
    (fun b => Closed Sample.ts res b (fs.map Feed.sample)) none (fs.map Feed.sample)
  rw [length, Option.toList_none, List.nil_append] at held
  refine Eq.trans ?_ held
  unfold RollupDb.rollupSum RollupDb.rollupRows
  rw [sum_filterMap]
  congr 1
  apply List.map_congr_left
  intro i _
  rw [row_eq increasing hres (not_latency name h)]
  by_cases closed : Closed Sample.ts res (start + i) (fs.map Feed.sample)
  · rw [if_pos closed, if_pos closed]
    have agg := rowOf_agg (samplesHeld res (start + i) name none (fs.map Feed.sample))
    cases hagg : aggOf (samplesHeld res (start + i) name none (fs.map Feed.sample)) with
    | none =>
        have no_row : SampleRows.rowOf
            (samplesHeld res (start + i) name none (fs.map Feed.sample)) = none := by
          rw [hagg] at agg
          exact Option.map_eq_none_iff.mp agg
        rw [no_row, aggOf_eq_none.mp hagg]
        rfl
    | some a =>
        rw [hagg] at agg
        obtain ⟨row, hrow, same⟩ := Option.map_eq_some_iff.mp agg
        rw [hrow]
        show row.agg.sum = _
        rw [same]
        exact (sum_and_n_of_aggOf hagg).1
  · rw [if_neg closed, if_neg closed]
    rfl

/-- Where a tier's first row of a metric starts, if it has any. -/
def FirstTs (db : RollupDb) (res : ℤ) (name : String) (first : Option ℤ) : Prop :=
  match first with
  | none => ∀ ts, db.rollup res name ts = none
  | some t => db.rollup res name t ≠ none ∧ ∀ ts < t, db.rollup res name ts = none

/-- A point in ten minutes is in a minute of them. -/
theorem exists_minute {name : String} {b : ℤ} {prev : Option Sample} {samples : List Sample}
    (h : samplesHeld res10m b name prev samples ≠ []) :
    res10m ∣ b ∧ ∃ c < b + res10m, samplesHeld res1m c name prev samples ≠ [] := by
  have minute : res1m = 60 := rfl
  have ten : res10m = 600 := rfl
  induction samples generalizing prev with
  | nil => exact absurd rfl h
  | cons s samples ih =>
      rw [samplesHeld] at h
      by_cases rest : samplesHeld res10m b name (some s) samples = []
      · rw [rest, List.append_nil] at h
        split at h
        · rename_i here
          refine ⟨by rw [← here]; exact bucket_dvd _, bucket res1m s.ts, ?_, ?_⟩
          · unfold bucket at here ⊢
            rw [ten] at here ⊢
            rw [minute]
            omega
          · rw [samplesHeld, if_pos rfl]
            exact List.append_ne_nil_of_left_ne_nil h _
        · exact absurd rfl h
      · obtain ⟨dvd, c, lt, held⟩ := ih rest
        refine ⟨dvd, c, lt, ?_⟩
        rw [samplesHeld]
        exact List.append_ne_nil_of_right_ne_nil _ held

theorem row_ne_none (increasing : Increasing (fs.map Feed.sample)) {res : ℤ}
    (hres : res ∈ [res1m, res10m]) {name : String} (h : name ∈ counted) {b : ℤ}
    (closed : Closed Sample.ts res b (fs.map Feed.sample))
    (held : samplesHeld res b name none (fs.map Feed.sample) ≠ []) :
    (({} : Pipeline).pushAll {} fs).2.rollup res name b ≠ none := by
  have not_latency : ∀ n ∈ counted, n ∉ latencyNames := by decide
  rw [row_eq increasing hres (not_latency name h), if_pos closed]
  unfold SampleRows.rowOf
  rw [Ne, Option.map_eq_none_iff, aggOf_eq_none]
  exact held

/-- Where the tier of ten minutes has a row, the tier of minutes has one. -/
theorem exists_minute_row (increasing : Increasing (fs.map Feed.sample)) {name : String}
    (h : name ∈ counted) {b : ℤ}
    (row : (({} : Pipeline).pushAll {} fs).2.rollup res10m name b ≠ none) :
    ∃ c, (({} : Pipeline).pushAll {} fs).2.rollup res1m name c ≠ none := by
  have not_latency : ∀ n ∈ counted, n ∉ latencyNames := by decide
  have minute : res1m = 60 := rfl
  have ten : res10m = 600 := rfl
  rw [row_eq increasing (by decide) (not_latency name h)] at row
  split at row
  · rename_i closed
    have held : samplesHeld res10m b name none (fs.map Feed.sample) ≠ [] := by
      intro empty
      rw [empty] at row
      exact row rfl
    obtain ⟨dvd, c, lt, held⟩ := exists_minute held
    refine ⟨c, row_ne_none increasing (by decide) h ?_ held⟩
    obtain ⟨x, hx, later⟩ := closed
    refine ⟨x, hx, ?_⟩
    have behind := (lt_bucket_iff (by decide) dvd x.ts).mp later
    unfold bucket
    rw [ten] at lt behind dvd
    rw [minute]
    omega
  · exact absurd rfl row

/-! ## Growing windows -/

/-- Where both windows are reported, the first has no more of anything. -/
def AtMost (short long : Option WorkWindow) : Prop :=
  ∀ a ∈ short, ∀ b ∈ long, a.generated ≤ b.generated ∧ a.prompt ≤ b.prompt ∧
    a.cached ≤ b.cached ∧ a.requests ≤ b.requests

theorem atMost_none (long : Option WorkWindow) : AtMost none long := fun _ ha => nomatch ha

theorem atMost_window {db : RollupDb} {firstTs : ℤ → Option ℤ} {res res' : ℤ}
    (first : firstTs res ≠ none) (first' : firstTs res' ≠ none) (now start start' : ℤ) :
    AtMost (window db firstTs res now start).1 (window db firstTs res' now start').1 ↔
      ∀ name ∈ counted,
        db.rollupSum res name start (now + 1) ≤ db.rollupSum res' name start' (now + 1) := by
  obtain ⟨t, ht⟩ := Option.ne_none_iff_exists'.mp first
  obtain ⟨t', ht'⟩ := Option.ne_none_iff_exists'.mp first'
  unfold window AtMost counted
  rw [ht, ht']
  dsimp only
  constructor
  · intro h name hname
    obtain ⟨generated, prompt, cached, requests⟩ := h _ rfl _ rfl
    simp only [List.mem_cons, List.not_mem_nil, or_false] at hname
    obtain rfl | rfl | rfl | rfl := hname
    · exact generated
    · exact prompt
    · exact cached
    · exact requests
  · intro h a ha b hb
    obtain rfl := Option.some.inj ha
    obtain rfl := Option.some.inj hb
    exact ⟨h _ (by decide), h _ (by decide), h _ (by decide), h _ (by decide)⟩

/-- The step ends in a minute of the last week that is over, of ten minutes that are not. -/
def Unfinished (now : ℤ) (samples : List Sample) (p : Sample × Sample) : Prop :=
  now - 7 * 86400 ≤ bucket res1m p.2.ts ∧ Closed Sample.ts res1m (bucket res1m p.2.ts) samples ∧
    ¬Closed Sample.ts res10m (bucket res10m p.2.ts) samples

/-- The step ends in ten minutes of the last thirty days that are over, in a minute from before
the last week. -/
def BeforeWeek (now : ℤ) (samples : List Sample) (p : Sample × Sample) : Prop :=
  now - 30 * 86400 ≤ bucket res10m p.2.ts ∧ bucket res1m p.2.ts < now - 7 * 86400 ∧
    Closed Sample.ts res10m (bucket res10m p.2.ts) samples

instance (now : ℤ) (samples : List Sample) : DecidablePred (Unfinished now samples) :=
  fun _ => inferInstanceAs (Decidable (_ ∧ _))

instance (now : ℤ) (samples : List Sample) : DecidablePred (BeforeWeek now samples) :=
  fun _ => inferInstanceAs (Decidable (_ ∧ _))

/-- A window of minutes has no more than a longer one. -/
theorem rollupSum_mono (increasing : Increasing (fs.map Feed.sample)) {name : String}
    (h : name ∈ counted) {start start' stop : ℤ} (longer : start' ≤ start) (le : start ≤ stop) :
    (({} : Pipeline).pushAll {} fs).2.rollupSum res1m name start stop ≤
      (({} : Pipeline).pushAll {} fs).2.rollupSum res1m name start' stop := by
  rw [rollupSum_eq increasing (by decide) h le,
    rollupSum_eq increasing (by decide) h (longer.trans le)]
  apply counts_mono h
  rintro p _ ⟨⟨ge, lt⟩, closed⟩
  exact ⟨⟨longer.trans ge, lt⟩, closed⟩

/-- The week has no more than the month exactly when the minutes of the ten minutes that are not
over have no more than what the month has from before the week. -/
theorem week_le_month_iff (increasing : Increasing (fs.map Feed.sample)) {now : ℤ}
    (late : ∀ s ∈ fs.map Feed.sample, s.ts ≤ now) {name : String} (h : name ∈ counted) :
    (({} : Pipeline).pushAll {} fs).2.rollupSum res1m name (now - 7 * 86400) (now + 1) ≤
        (({} : Pipeline).pushAll {} fs).2.rollupSum res10m name (now - 30 * 86400) (now + 1) ↔
      counts name (fs.map Feed.sample) (Unfinished now (fs.map Feed.sample)) ≤
        counts name (fs.map Feed.sample) (BeforeWeek now (fs.map Feed.sample)) := by
  have minute : res1m = 60 := rfl
  have ten : res10m = 600 := rfl
  rw [rollupSum_eq increasing (by decide) h (by omega),
    rollupSum_eq increasing (by decide) h (by omega), counts_le_iff]
  -- what lies in the week lies in the month, but for the ten minutes that are not over
  have week_only : ∀ p ∈ steps (fs.map Feed.sample),
      (InRows res1m (now - 7 * 86400) (now + 1) (fs.map Feed.sample) p ∧
        ¬InRows res10m (now - 30 * 86400) (now + 1) (fs.map Feed.sample) p) ↔
      Unfinished now (fs.map Feed.sample) p := by
    intro p hp
    have before := late p.2 (mem_of_mem_steps hp).2
    have tens : bucket res10m p.2.ts < now + 1 ∧
        (now - 7 * 86400 ≤ bucket res1m p.2.ts → now - 30 * 86400 ≤ bucket res10m p.2.ts) := by
      unfold bucket
      rw [ten, minute]
      omega
    have minutes : bucket res1m p.2.ts < now + 1 := by
      unfold bucket
      rw [minute]
      omega
    constructor
    · rintro ⟨⟨⟨ge, _⟩, closed⟩, out⟩
      exact ⟨ge, closed, fun ended => out ⟨⟨tens.2 ge, tens.1⟩, ended⟩⟩
    · rintro ⟨ge, closed, isOpen⟩
      exact ⟨⟨⟨ge, minutes⟩, closed⟩, fun row => isOpen row.2⟩
  have month_only : ∀ p ∈ steps (fs.map Feed.sample),
      (InRows res10m (now - 30 * 86400) (now + 1) (fs.map Feed.sample) p ∧
        ¬InRows res1m (now - 7 * 86400) (now + 1) (fs.map Feed.sample) p) ↔
      BeforeWeek now (fs.map Feed.sample) p := by
    intro p hp
    have before := late p.2 (mem_of_mem_steps hp).2
    have tens : bucket res10m p.2.ts < now + 1 ∧ bucket res1m p.2.ts < now + 1 := by
      unfold bucket
      rw [ten, minute]
      omega
    have closed_minute : Closed Sample.ts res10m (bucket res10m p.2.ts) (fs.map Feed.sample) →
        Closed Sample.ts res1m (bucket res1m p.2.ts) (fs.map Feed.sample) := by
      rintro ⟨x, hx, later⟩
      refine ⟨x, hx, ?_⟩
      unfold bucket at later ⊢
      rw [ten] at later
      rw [minute]
      omega
    constructor
    · rintro ⟨⟨⟨ge, _⟩, closed⟩, out⟩
      refine ⟨ge, not_le.mp fun week => out ⟨⟨week, tens.2⟩, closed_minute closed⟩, closed⟩
    · rintro ⟨ge, lt, closed⟩
      exact ⟨⟨⟨ge, tens.1⟩, closed⟩, fun row => absurd row.1.1 (not_le.mpr lt)⟩
  rw [counts_congr week_only, counts_congr month_only]

end Store

/-- The windows reported for one moment grow from the hour to the month exactly when no month is
reported, or what the month has from before the last week makes up for the minutes of the ten
minutes that are not over. -/
theorem token_windows_grow_iff (fs : List Feed) (increasing : Increasing (fs.map Feed.sample))
    (now : ℤ) (late : ∀ s ∈ fs.map Feed.sample, s.ts ≤ now) (firstTs : ℤ → Option ℤ)
    (first : ∀ res ∈ [res1m, res10m],
      FirstTs (({} : Pipeline).pushAll {} fs).2 res "tok_gen" (firstTs res)) :
    let windows := compute (({} : Pipeline).pushAll {} fs).2 firstTs now
    (AtMost windows.hour windows.day ∧ AtMost windows.day windows.week ∧
        AtMost windows.week windows.month) ↔
      firstTs res10m = none ∨ ∀ name ∈ counted,
        counts name (fs.map Feed.sample) (Unfinished now (fs.map Feed.sample)) ≤
          counts name (fs.map Feed.sample) (BeforeWeek now (fs.map Feed.sample)) := by
  intro windows
  have minutes_first : firstTs res10m ≠ none → firstTs res1m ≠ none := by
    intro some_ten no_minute
    have ten := first res10m (by decide)
    have minute := first res1m (by decide)
    obtain ⟨t, ht⟩ := Option.ne_none_iff_exists'.mp some_ten
    rw [ht] at ten
    rw [no_minute] at minute
    obtain ⟨c, row⟩ := exists_minute_row increasing (by decide) ten.1
    exact row (minute c)
  have short : AtMost windows.hour windows.day ∧ AtMost windows.day windows.week := by
    by_cases none_yet : firstTs res1m = none
    · have no_window : ∀ start, (window (({} : Pipeline).pushAll {} fs).2 firstTs res1m now
          start).1 = none := by
        intro start
        unfold window
        rw [none_yet]
      have no_hour : windows.hour = none := no_window _
      have no_day : windows.day = none := no_window _
      rw [no_hour, no_day]
      exact ⟨atMost_none _, atMost_none _⟩
    · refine ⟨(atMost_window none_yet none_yet now _ _).mpr ?_,
        (atMost_window none_yet none_yet now _ _).mpr ?_⟩
      · exact fun name h => rollupSum_mono increasing h (by omega) (by omega)
      · exact fun name h => rollupSum_mono increasing h (by omega) (by omega)
  by_cases no_month : firstTs res10m = none
  · have month : windows.month = none := by
      show (window _ firstTs res10m now _).1 = none
      unfold window
      rw [no_month]
    rw [month]
    exact iff_of_true ⟨short.1, short.2, fun _ _ _ hb => nomatch hb⟩ (Or.inl no_month)
  · have long : AtMost windows.week windows.month ↔ ∀ name ∈ counted,
        counts name (fs.map Feed.sample) (Unfinished now (fs.map Feed.sample)) ≤
          counts name (fs.map Feed.sample) (BeforeWeek now (fs.map Feed.sample)) := by
      refine (atMost_window (minutes_first no_month) no_month now _ _).trans ?_
      exact forall₂_congr fun name h => week_le_month_iff increasing late h
    rw [long]
    constructor
    · exact fun h => Or.inr h.2.2
    · intro h
      exact ⟨short.1, short.2, h.resolve_left no_month⟩

/-! ## The ten minutes that are not over -/

/-- The first row of a tier is that of its first bucket. -/
theorem firstTs_of_row {fs : List Feed} (increasing : Increasing (fs.map Feed.sample)) {res : ℤ}
    (hres : res ∈ [res1m, res10m]) {name : String} (h : name ∈ counted) {b : ℤ}
    (row : (({} : Pipeline).pushAll {} fs).2.rollup res name b ≠ none)
    (start : ∀ s ∈ fs.map Feed.sample, b ≤ bucket res s.ts) :
    FirstTs (({} : Pipeline).pushAll {} fs).2 res name (some b) := by
  have not_latency : ∀ n ∈ counted, n ∉ latencyNames := by decide
  refine ⟨row, ?_⟩
  intro ts lt
  rw [row_eq increasing hres (not_latency name h)]
  split
  · rw [samplesHeld_eq_nil fun s hs => ne_of_gt (lt_of_lt_of_le lt (start s hs))]
    rfl
  · rfl

/-- A sample with the engine's counter of generated tokens. -/
def generatedBy (ts : ℤ) (tokens : ℚ) : Feed :=
  { sample := { ts := ts, serveUp := true, metrics := some { generationTokensTotal := tokens } } }

/-- Ten tokens in the last minute of ten minutes, and a hundred in the first of the next. -/
def busyMinutes : List Feed :=
  [generatedBy 540 0, generatedBy 590 10, generatedBy 600 10, generatedBy 610 110,
    generatedBy 660 110]

/-- The first rows of both tiers. -/
def busyFirst (res : ℤ) : Option ℤ := if res = res1m then some 540 else some 0

/-- What a tier has first in a bucket. -/
def StartsWith (res b : ℤ) (samples : List Sample) : Prop :=
  Closed Sample.ts res b samples ∧ samplesHeld res b "tok_gen" none samples ≠ [] ∧
    ∀ s ∈ samples, b ≤ bucket res s.ts

instance (res b : ℤ) (samples : List Sample) : Decidable (StartsWith res b samples) :=
  inferInstanceAs (Decidable (_ ∧ _ ∧ _))

theorem first_of_busy {fs : List Feed} (increasing : Increasing (fs.map Feed.sample))
    (minutes : StartsWith res1m 540 (fs.map Feed.sample))
    (tens : StartsWith res10m 0 (fs.map Feed.sample)) :
    ∀ res ∈ [res1m, res10m],
      FirstTs (({} : Pipeline).pushAll {} fs).2 res "tok_gen" (busyFirst res) := by
  intro res hres
  obtain rfl | rfl := List.mem_pair.mp hres
  · exact firstTs_of_row increasing (by decide) (by decide)
      (row_ne_none increasing (by decide) (by decide) minutes.1 minutes.2.1) minutes.2.2
  · exact firstTs_of_row increasing (by decide) (by decide)
      (row_ne_none increasing (by decide) (by decide) tens.1 tens.2.1) tens.2.2

/-- Once the ten minutes are over, the month has them. -/
theorem the_month_has_closed_minutes :
    let windows := compute
      (({} : Pipeline).pushAll {} (busyMinutes ++ [generatedBy 1200 110])).2 busyFirst 1200
    AtMost windows.hour windows.day ∧ AtMost windows.day windows.week ∧
      AtMost windows.week windows.month := by
  have increasing : Increasing ((busyMinutes ++ [generatedBy 1200 110]).map Feed.sample) := by
    unfold Increasing
    decide
  exact (token_windows_grow_iff _ increasing 1200 (by decide) busyFirst
    (first_of_busy increasing (by decide +kernel) (by decide +kernel))).mpr
      (Or.inr (by decide +kernel))

/-- While they are not, the week has their minutes and the month does not. -/
theorem the_month_misses_the_open_minutes :
    let db := (({} : Pipeline).pushAll {} busyMinutes).2
    let windows := compute db busyFirst 660
    (∀ res ∈ [res1m, res10m], FirstTs db res "tok_gen" (busyFirst res)) ∧
      ¬(AtMost windows.hour windows.day ∧ AtMost windows.day windows.week ∧
        AtMost windows.week windows.month) := by
  have increasing : Increasing (busyMinutes.map Feed.sample) := by
    unfold Increasing
    decide
  have first_minute : busyFirst res1m ≠ none := by decide
  have first_ten : busyFirst res10m ≠ none := by decide
  intro db windows
  refine ⟨first_of_busy increasing (by decide +kernel) (by decide +kernel), ?_⟩
  rintro ⟨_, _, long⟩
  have grows : AtMost (window db busyFirst res1m 660 (660 - 7 * 86400)).1
      (window db busyFirst res10m 660 (660 - 30 * 86400)).1 := long
  have sums := (atMost_window first_minute first_ten 660 _ _).mp grows "tok_gen" (by decide)
  have counted_most := (week_le_month_iff increasing (by decide) (by decide)).mp sums
  exact absurd counted_most (by decide +kernel)

end Lss.Analysis.TokenWindows
