import Mathlib.Data.List.Dedup
import Lss.Analysis.PassedBuckets
import Lss.Analysis.TierMerge
import Lss.Model.Query

/-!
# The cells of a series

A cell of an answer is the merge of the aggregates that fall into its time. Where the rows of
whole buckets are read, the plan puts the cells on the grid of the buckets, and a row gives
back the aggregate it was made of: a cell whose buckets the run has passed holds what all
their points would have made of it.
-/

set_option autoImplicit false

namespace Lss.Analysis.SeriesCells

open Lss.Library.Buckets Lss.Library.Fold Lss.Model Lss.Analysis.PassedBuckets
  Lss.Analysis.RollupRows Lss.Analysis.SampleRows Lss.Analysis.TierMerge

/-! ## The plan -/

theorem res_pos (t : Tier) : 0 < t.res := by cases t <;> decide

/-- The cells of a plan are made of whole buckets of its tier. -/
theorem plan_grid (now range : ℤ) (step : Option ℤ) (keep : Retention) :
    0 < (plan now range step keep).stepS ∧
      (plan now range step keep).tier.res ∣ (plan now range step keep).stepS ∧
      (plan now range step keep).tier.res ∣ (plan now range step keep).startTs := by
  unfold plan
  dsimp only
  generalize max 60 (min range (max keep.m10 60)) = rangeS
  generalize hwant : max (max (step.getD 1) ((rangeS + maxPoints - 1) / maxPoints)) 1 = want
  generalize planTier want rangeS keep = tier
  have hres := res_pos tier
  have hpos : 1 ≤ want := by rw [← hwant]; exact le_max_right _ _
  have hsteps : 1 ≤ (want + tier.res - 1) / tier.res := by
    rw [Int.le_ediv_iff_mul_le hres]
    omega
  have hdvd : tier.res ∣ (want + tier.res - 1) / tier.res * tier.res := dvd_mul_left _ _
  refine ⟨mul_pos (by omega) hres, hdvd, ?_⟩
  generalize (want + tier.res - 1) / tier.res * tier.res = stepS at hdvd ⊢
  generalize max 1 (min ((rangeS + stepS - 1) / stepS).toNat maxPoints) = points
  have hnow : stepS ∣ now - now % stepS := Int.dvd_self_sub_of_emod_eq rfl
  exact ((hdvd.trans hnow).add hdvd).sub (hdvd.mul_left _)

/-- A time lies in a cell. -/
def InCell (p : Plan) (idx : ℕ) (ts : ℤ) : Prop := p.tsOf idx ≤ ts ∧ ts < p.tsOf idx + p.stepS

instance (p : Plan) (idx : ℕ) (ts : ℤ) : Decidable (InCell p idx ts) :=
  inferInstanceAs (Decidable (_ ∧ _))

theorem inCell_iff {p : Plan} (hstep : 0 < p.stepS) (idx : ℕ) (ts : ℤ) :
    InCell p idx ts ↔ ¬ ts < p.startTs ∧ ((ts - p.startTs) / p.stepS).toNat = idx := by
  have hfrom : 0 ≤ (idx : ℤ) * p.stepS := by positivity
  have hquot : (ts - p.startTs) / p.stepS = idx ↔ InCell p idx ts := by
    have hlow := Int.le_ediv_iff_mul_le (a := idx) (b := ts - p.startTs) hstep
    have hhigh := Int.ediv_lt_iff_lt_mul (a := ts - p.startTs) (b := idx + 1) hstep
    rw [add_mul, one_mul] at hhigh
    unfold InCell Plan.tsOf
    omega
  rw [← hquot]
  constructor
  · intro h
    have hin := hquot.1 h
    unfold InCell Plan.tsOf at hin
    omega
  · rintro ⟨hstart, hidx⟩
    have hnonneg : 0 ≤ (ts - p.startTs) / p.stepS := Int.ediv_nonneg (by omega) hstep.le
    omega

/-! ## What a builder is fed -/

/-- A builder has a row of cells for every metric that is asked for. -/
structure Shaped (b : SeriesBuilder) : Prop where
  length_eq : b.cells.length = b.tokens.length
  row_length : ∀ row ∈ b.cells, row.length = b.plan.points

theorem shaped_new (p : Plan) (tokens : List String) : Shaped (SeriesBuilder.new p tokens) where
  length_eq := by simp [SeriesBuilder.new]
  row_length row hrow := by
    rw [List.eq_of_mem_replicate hrow]
    exact List.length_replicate

theorem add_plan (b : SeriesBuilder) (metric : String) (ts : ℤ) (agg : Agg) :
    (b.add metric ts agg).plan = b.plan := by
  unfold SeriesBuilder.add
  dsimp only
  split
  · rfl
  · split <;> rfl

theorem add_tokens (b : SeriesBuilder) (metric : String) (ts : ℤ) (agg : Agg) :
    (b.add metric ts agg).tokens = b.tokens := by
  unfold SeriesBuilder.add
  dsimp only
  split
  · rfl
  · split <;> rfl

theorem Shaped.add {b : SeriesBuilder} (h : Shaped b) (metric : String) (ts : ℤ) (agg : Agg) :
    Shaped (b.add metric ts agg) := by
  unfold SeriesBuilder.add
  dsimp only
  split
  · exact h
  · split
    · exact h
    · refine ⟨?_, ?_⟩
      · dsimp only
        rw [List.length_zipWith, h.length_eq, min_self]
      · intro row hrow
        dsimp only at hrow ⊢
        obtain ⟨i, hi, rfl⟩ := List.mem_iff_getElem.1 hrow
        rw [List.length_zipWith] at hi
        rw [List.getElem_zipWith]
        have hold := h.row_length b.cells[i] (List.getElem_mem _)
        split
        · rw [List.length_modify]
          exact hold
        · exact hold

/-- One more aggregate is merged into the cell of its time. -/
theorem cell_add {b : SeriesBuilder} (h : Shaped b) (hstep : 0 < b.plan.stepS) {i idx : ℕ}
    {t : String × String × AggKind} (ht : b.tokens[i]? = some t) (hidx : idx < b.plan.points)
    (metric : String) (ts : ℤ) (agg : Agg) :
    (b.add metric ts agg).cell i idx =
      if t.2.1 = metric ∧ InCell b.plan idx ts then
        (b.cell i idx).merge Agg.merge (some agg)
      else b.cell i idx := by
  have hi : i < b.tokens.length := (List.getElem?_eq_some_iff.1 ht).1
  have hcells : i < b.cells.length := by rw [h.length_eq]; exact hi
  have hrow : b.cells[i].length = b.plan.points := h.row_length _ (List.getElem_mem _)
  have hmerge : ∀ cell : Option Agg, SeriesBuilder.mergeCell cell agg =
      cell.merge Agg.merge (some agg) := by
    intro cell
    cases cell <;> rfl
  have hin := inCell_iff hstep idx ts
  unfold SeriesBuilder.add
  dsimp only
  split
  · next hearly => rw [if_neg (fun hc => (hin.1 hc.2).1 hearly)]
  · next hstart =>
      split
      · next hlate =>
          rw [if_neg]
          rintro ⟨-, hc⟩
          have hcell := (hin.1 hc).2
          omega
      · unfold SeriesBuilder.cell
        dsimp only
        rw [List.getD_eq_getElem?_getD (l := List.zipWith _ _ _), List.getElem?_zipWith, ht,
          List.getElem?_eq_getElem hcells]
        dsimp only
        rw [Option.getD_some, List.getD_eq_getElem?_getD (l := b.cells),
          List.getElem?_eq_getElem hcells, Option.getD_some]
        by_cases hname : t.2.1 = metric
        · rw [if_pos (by simpa using hname), List.getD_eq_getElem?_getD, List.getElem?_modify,
            List.getD_eq_getElem?_getD,
            List.getElem?_eq_getElem (by rw [hrow]; exact hidx)]
          by_cases hcell : ((ts - b.plan.startTs) / b.plan.stepS).toNat = idx
          · rw [if_pos ⟨hname, hin.2 ⟨hstart, hcell⟩⟩]
            simp [hcell, hmerge]
          · rw [if_neg (fun hc => hcell (hin.1 hc.2).2)]
            simp [hcell]
        · rw [if_neg (by simpa using hname), if_neg (fun hc => hname hc.1)]

/-- Feeds aggregates one after the other. -/
def addAll (b : SeriesBuilder) (xs : List (String × ℤ × Agg)) : SeriesBuilder :=
  xs.foldl (fun b x => b.add x.1 x.2.1 x.2.2) b

/-- The aggregates of a metric that fall into a cell. -/
def intoCell (p : Plan) (name : String) (idx : ℕ) (x : String × ℤ × Agg) : Option Agg :=
  if name = x.1 ∧ InCell p idx x.2.1 then some x.2.2 else none

theorem cell_addAll {b : SeriesBuilder} (h : Shaped b) (hstep : 0 < b.plan.stepS) {i idx : ℕ}
    {t : String × String × AggKind} (ht : b.tokens[i]? = some t) (hidx : idx < b.plan.points)
    (xs : List (String × ℤ × Agg)) :
    (addAll b xs).cell i idx = (xs.filterMap (intoCell b.plan t.2.1 idx)).foldl
      (fun acc a => acc.merge Agg.merge (some a)) (b.cell i idx) := by
  induction xs generalizing b with
  | nil => rfl
  | cons x xs ih =>
      have hrest := ih (h.add x.1 x.2.1 x.2.2) (by rw [add_plan]; exact hstep)
        (by rw [add_tokens]; exact ht) (by rw [add_plan]; exact hidx)
      rw [add_plan, cell_add h hstep ht hidx] at hrest
      show (addAll (b.add x.1 x.2.1 x.2.2) xs).cell i idx = _
      rw [hrest, List.filterMap_cons]
      unfold intoCell
      by_cases hin : t.2.1 = x.1 ∧ InCell b.plan idx x.2.1
      · rw [if_pos hin, if_pos hin, List.foldl_cons]
      · rw [if_neg hin, if_neg hin]

/-- The cell of a new builder that was fed some aggregates is the merge of those of its metric
that fall into it. -/
theorem cell_new_addAll {p : Plan} (hstep : 0 < p.stepS) {tokens : List String} {i idx : ℕ}
    {token : String} (htoken : tokens[i]? = some token) (hidx : idx < p.points)
    (xs : List (String × ℤ × Agg)) :
    (addAll (SeriesBuilder.new p tokens) xs).cell i idx =
      fold1 Agg.merge (xs.filterMap (intoCell p (parseMetricToken token).1 idx)) := by
  have ht : (SeriesBuilder.new p tokens).tokens[i]? = some (token, parseMetricToken token) := by
    unfold SeriesBuilder.new
    rw [List.getElem?_map, htoken]
    rfl
  have hempty : (SeriesBuilder.new p tokens).cell i idx = none := by
    have hi : i < tokens.length := (List.getElem?_eq_some_iff.1 htoken).1
    unfold SeriesBuilder.cell SeriesBuilder.new
    simp [hi, hidx, List.getD_eq_getElem?_getD]
  rw [cell_addAll (shaped_new p tokens) hstep ht hidx, hempty, foldl_merge_some]
  rfl

/-! ## Reading rows and reading points -/

theorem readRows_eq (b : SeriesBuilder) (db : RollupDb) :
    b.readRows db = addAll b (b.names.flatMap fun name =>
      (db.rollupRows b.plan.tier.res name b.plan.startTs
        (b.plan.startTs + b.plan.points * b.plan.stepS)).map fun row => (name, row)) := by
  unfold SeriesBuilder.readRows addAll
  rw [List.foldl_flatMap]
  simp only [List.foldl_map]

theorem readPoints_eq (b : SeriesBuilder) (points : List (String × ℤ × ℚ)) :
    b.readPoints points = addAll b (points.map fun p => (p.1, p.2.1, Agg.one p.2.2)) := by
  unfold SeriesBuilder.readPoints addAll
  rw [List.foldl_map]

theorem flatMap_of_nodup {α β : Type} (f : α → List β) {a : α} {xs : List α} (nodup : xs.Nodup)
    (mem : a ∈ xs) (others : ∀ x ∈ xs, x ≠ a → f x = []) : xs.flatMap f = f a := by
  obtain ⟨pre, post, rfl⟩ := List.append_of_mem mem
  have hnodup := List.nodup_middle.1 nodup
  rw [List.nodup_cons, List.mem_append, not_or] at hnodup
  have hpre : pre.flatMap f = [] := by
    rw [List.flatMap_eq_nil_iff]
    intro x hx
    exact others x (by simp [hx]) fun heq => hnodup.1.1 (heq ▸ hx)
  have hpost : post.flatMap f = [] := by
    rw [List.flatMap_eq_nil_iff]
    intro x hx
    exact others x (by simp [hx]) fun heq => hnodup.1.2 (heq ▸ hx)
  rw [List.flatMap_append, List.flatMap_cons, hpre, hpost, List.nil_append, List.append_nil]

/-- Only the rows of its own metric come into a cell. -/
theorem filterMap_rows (p : Plan) {names : List String} (nodup : names.Nodup) {name : String}
    (hname : name ∈ names) (rows : String → List (ℤ × Agg)) (idx : ℕ) :
    (names.flatMap fun n => (rows n).map fun row => (n, row)).filterMap (intoCell p name idx) =
      (rows name).filterMap fun row => if InCell p idx row.1 then some row.2 else none := by
  rw [List.filterMap_flatMap, flatMap_of_nodup _ nodup hname]
  · rw [List.filterMap_map]
    apply List.filterMap_congr
    intro row _
    show (if name = name ∧ _ then _ else _) = _
    simp only [true_and]
  · intro n _ hne
    rw [List.filterMap_map, List.filterMap_eq_nil_iff]
    intro row _
    exact if_neg fun hc => hne hc.1.symm

theorem nodup_names (b : SeriesBuilder) : b.names.Nodup := List.nodup_dedup _

theorem mem_names {tokens : List String} (p : Plan) {i : ℕ} {token : String}
    (htoken : tokens[i]? = some token) :
    (parseMetricToken token).1 ∈ (SeriesBuilder.new p tokens).names := by
  unfold SeriesBuilder.names SeriesBuilder.new
  rw [List.mem_dedup, List.mem_mergeSort, List.map_map, List.mem_map]
  exact ⟨token, List.mem_of_getElem? htoken, rfl⟩

/-- The raw points of a metric that fall into a cell. -/
theorem filterMap_rawPoints (p : Plan) (name : String) (idx : ℕ) (prev : Option Sample)
    (fs : List Feed) :
    ((rawPoints prev (fs.map Feed.sample)).map fun x => (x.1, x.2.1, Agg.one x.2.2)).filterMap
        (intoCell p name idx) =
      (((withPoints prev fs).filter fun x => InCell p idx (time x)).flatMap fun x =>
        values name x.2).map Agg.one := by
  induction fs generalizing prev with
  | nil => rfl
  | cons f fs ih =>
      have hself : ((samplePoints prev f.sample).map fun q => (q.1, f.sample.ts, q.2)).filterMap
          (fun x => intoCell p name idx (x.1, x.2.1, Agg.one x.2.2)) =
          (if InCell p idx f.sample.ts then values name (samplePoints prev f.sample)
            else []).map Agg.one := by
        rw [List.filterMap_map]
        generalize samplePoints prev f.sample = points
        induction points with
        | nil => cases decide (InCell p idx f.sample.ts) <;> simp [values]
        | cons q points ihq =>
            rw [List.filterMap_cons, ihq, values_cons]
            unfold intoCell
            by_cases hname : q.1 = name
            · by_cases hin : InCell p idx f.sample.ts
              · simp [hname, hin]
              · simp [hin]
            · have hne : ¬ name = q.1 := fun heq => hname heq.symm
              simp [hname, hne]
      rw [List.map_cons, rawPoints, List.map_append, List.filterMap_append, ih, withPoints,
        List.filterMap_map (l := List.map _ _)]
      rw [show (intoCell p name idx ∘ fun x : String × ℤ × ℚ => (x.1, x.2.1, Agg.one x.2.2)) =
        fun x => intoCell p name idx (x.1, x.2.1, Agg.one x.2.2) from rfl, hself]
      rw [List.filter_cons]
      by_cases hin : InCell p idx f.sample.ts
      · have htime : decide (InCell p idx (time (f, samplePoints prev f.sample))) = true :=
          decide_eq_true hin
        rw [if_pos hin, if_pos htime, List.flatMap_cons, List.map_append]
      · have htime : ¬ decide (InCell p idx (time (f, samplePoints prev f.sample))) = true := by
          rw [decide_eq_true_eq]
          exact hin
        rw [if_neg hin, if_neg htime]
        rfl

theorem aggOf_perm {vs ws : List ℚ} (h : vs.Perm ws) : aggOf vs = aggOf ws := by
  rw [aggOf_eq_fold1, aggOf_eq_fold1]
  exact fold1_perm (h.map Agg.one)

/-! ## The cells of a tier -/

/-- What the buckets of a cell hold is what lies in the cell. -/
theorem cell_values_perm {p : Plan} {res : ℤ} (hres : 0 < res) (hstart : res ∣ p.startTs)
    (hstep : 0 < p.stepS) (hdvd : res ∣ p.stepS) {idx : ℕ} (hidx : idx < p.points) (name : String)
    (xs : List Fed) :
    ((List.range (p.points * p.stepS).toNat).flatMap fun i : ℕ =>
        if InCell p idx (p.startTs + i) then held res (p.startTs + i) name xs else []).Perm
      ((xs.filter fun x => InCell p idx (time x)).flatMap fun x => values name x.2) := by
  have hcell : res ∣ p.tsOf idx := hstart.add (hdvd.mul_left _)
  have hbucket : ∀ t, InCell p idx (bucket res t) ↔ InCell p idx t := by
    intro t
    have hlow := le_bucket_iff hres hcell t
    have hhigh := le_bucket_iff hres (hcell.add hdvd) t
    unfold InCell
    omega
  have hinside : ∀ t, InCell p idx t → p.startTs ≤ t ∧ t < p.startTs + p.points * p.stepS := by
    rintro t ⟨hle, hlt⟩
    have hfrom : 0 ≤ (idx : ℤ) * p.stepS := by positivity
    have hto : ((idx : ℤ) + 1) * p.stepS ≤ p.points * p.stepS := by
      apply mul_le_mul_of_nonneg_right _ hstep.le
      exact_mod_cast hidx
    rw [add_mul, one_mul] at hto
    unfold Plan.tsOf at hle hlt
    omega
  have hpick : ∀ i : ℕ, (if InCell p idx (p.startTs + i) then held res (p.startTs + i) name xs
      else []) = (inBucket time res (p.startTs + i)
        (xs.filter fun x => InCell p idx (bucket res (time x)))).flatMap fun x =>
          values name x.2 := by
    intro i
    unfold held inBucket
    rw [List.filter_filter]
    split
    · next hin =>
        congr 1
        apply List.filter_congr
        intro x _
        by_cases hx : bucket res (time x) = p.startTs + i
        · simp [hx, hin]
        · simp [hx]
    · next hout =>
        symm
        rw [List.flatMap_eq_nil_iff]
        intro x hx
        rw [List.mem_filter, Bool.and_eq_true, decide_eq_true_eq, decide_eq_true_eq] at hx
        exact absurd (hx.2.1 ▸ hx.2.2) hout
  simp only [hpick]
  refine (flatMap_range_perm _ _ _ _).trans (List.Perm.of_eq ?_)
  rw [List.filter_filter]
  congr 1
  apply List.filter_congr
  intro x _
  rw [← Bool.decide_and, decide_eq_decide, hbucket]
  constructor
  · rintro ⟨-, hin⟩
    exact hin
  · intro hin
    have hrange := hinside _ ((hbucket (time x)).2 hin)
    exact ⟨by omega, hin⟩

/-- The rows of a metric make of a cell what the points of its buckets make of it. -/
theorem fold_rows {p : Plan} (hstep : 0 < p.stepS) (hdvd : p.tier.res ∣ p.stepS)
    (hstart : p.tier.res ∣ p.startTs) (htier : p.tier ≠ .raw) {fs : List Feed} {name : String}
    (hname : name ∉ latencyNames) {idx : ℕ} (hidx : idx < p.points)
    (passed : ∀ b, p.tier.res ∣ b → InCell p idx b → Passed p.tier.res b fs) :
    fold1 Agg.merge (((({} : Pipeline).pushAll {} fs).2.rollupRows p.tier.res name p.startTs
        (p.startTs + p.points * p.stepS)).filterMap fun row =>
          if InCell p idx row.1 then some row.2 else none) =
      aggOf (((withPoints none fs).filter fun x => InCell p idx (time x)).flatMap fun x =>
        values name x.2) := by
  have hres : p.tier.res ∈ [res1m, res10m] := by
    cases h : p.tier with
    | raw => exact absurd h htier
    | m1 => simp [Tier.res]
    | m10 => simp [Tier.res]
  have hpassed : ∀ b, InCell p idx b → Passed p.tier.res b fs := by
    intro b hb
    by_cases hd : p.tier.res ∣ b
    · exact passed b hd hb
    · apply passed_of_empty
      rintro f _ rfl
      exact hd (bucket_dvd _)
  rw [← aggOf_perm (cell_values_perm (res_pos _) hstart hstep hdvd hidx name _), aggOf_flatMap]
  congr 1
  unfold RollupDb.rollupRows
  rw [List.filterMap_filterMap, add_sub_cancel_left]
  apply List.filterMap_congr
  intro i _
  split
  · next hin =>
      have hrow : ((({} : Pipeline).pushAll {} fs).2.rollup p.tier.res name (p.startTs + i)).map
          RollupRow.agg = aggOf (held p.tier.res (p.startTs + i) name (withPoints none fs)) := by
        rw [row_of_passed hres hname (hpassed _ hin)]
        exact rowOf_agg _
      rw [← hrow, Option.bind_map]
      cases (({} : Pipeline).pushAll {} fs).2.rollup p.tier.res name (p.startTs + i) with
      | none => rfl
      | some row => simp [hin]
  · next hout =>
      cases (({} : Pipeline).pushAll {} fs).2.rollup p.tier.res name (p.startTs + i) with
      | none => rfl
      | some row => simp [hout, aggOf]

/-- An answer does not depend on the tier it is read from: for every run of samples and every
plan that reads one of the tiers, a cell whose buckets the run has passed is the same whether
it is read from the stored rows or from all points of the samples. -/
theorem rows_answer_as_points (fs : List Feed) (now range : ℤ) (step : Option ℤ)
    (keep : Retention) (tokens : List String) (htier : (plan now range step keep).tier ≠ .raw)
    {i : ℕ} {token : String} (htoken : tokens[i]? = some token)
    (hname : (parseMetricToken token).1 ∉ latencyNames) {idx : ℕ}
    (hidx : idx < (plan now range step keep).points)
    (passed : ∀ b, (plan now range step keep).tier.res ∣ b →
      InCell (plan now range step keep) idx b →
      Passed (plan now range step keep).tier.res b fs) :
    ((SeriesBuilder.new (plan now range step keep) tokens).readRows
        (({} : Pipeline).pushAll {} fs).2).cell i idx =
      ((SeriesBuilder.new (plan now range step keep) tokens).readPoints
        (rawPoints none (fs.map Feed.sample))).cell i idx := by
  obtain ⟨hstep, hdvd, hstart⟩ := plan_grid now range step keep
  generalize plan now range step keep = p at *
  rw [readRows_eq, readPoints_eq, cell_new_addAll hstep htoken hidx,
    cell_new_addAll hstep htoken hidx, filterMap_rawPoints, ← aggOf_eq_fold1,
    filterMap_rows p (nodup_names _) (mem_names p htoken)]
  exact fold_rows hstep hdvd hstart htier hname hidx passed

/-- Two samples of one minute, and one that ends it. -/
def minuteFeeds : List Feed :=
  [{ sample := { ts := 0, serveUp := true } }, { sample := { ts := 30 } },
    { sample := { ts := 60 } }]

/-- The last hour, a minute a cell. -/
def lastHour : Plan := plan 100 3600 (some 60) ⟨86400, 1209600, 7776000⟩

theorem half_up_in_both :
    ((SeriesBuilder.new lastHour ["serve_up"]).readRows
        (({} : Pipeline).pushAll {} minuteFeeds).2).cell 0 58 = some ⟨1, 0, 1, 2⟩ ∧
      ((SeriesBuilder.new lastHour ["serve_up"]).readRows
          (({} : Pipeline).pushAll {} minuteFeeds).2).cell 0 58 =
        ((SeriesBuilder.new lastHour ["serve_up"]).readPoints
          (rawPoints none (minuteFeeds.map Feed.sample))).cell 0 58 := by
  have htier : lastHour.tier = .m1 := by decide
  refine ⟨by decide +kernel, rows_answer_as_points minuteFeeds 100 3600 (some 60)
    ⟨86400, 1209600, 7776000⟩ ["serve_up"] (by decide) rfl (by decide +kernel) (by decide) ?_⟩
  rintro b - ⟨-, hlt⟩
  have hend : lastHour.tsOf 58 + lastHour.stepS = 60 := by decide
  show Passed lastHour.tier.res b minuteFeeds
  rw [htier]
  refine passed_of_closed (by decide) (by unfold InOrder; decide) ⟨{ ts := 60 }, by simp [minuteFeeds], ?_⟩
  rw [show bucket Tier.m1.res 60 = 60 from by decide]
  exact hlt.trans_eq hend

end Lss.Analysis.SeriesCells
