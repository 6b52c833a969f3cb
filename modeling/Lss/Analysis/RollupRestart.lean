import Lss.Analysis.PointNames
import Lss.Analysis.SampleRows

/-!
# A restart and the rollup tiers

A collector that stops loses the buckets it had open. The next one replays the stored samples
from the last round ten minutes before its own start, which rebuilds the buckets that begin
there or later. This file compares the rows that the two runs write together with those of
one pipeline that was never stopped. They differ exactly when a bucket that the first run had
not closed holds a sample from before the round ten minutes, or the first replayed sample and
what that one has only together with the sample before it.
-/

set_option autoImplicit false

namespace Lss.Analysis.RollupRestart

open Lss.Library.Buckets Lss.Model Lss.Analysis.PointNames Lss.Analysis.RollupRows
  Lss.Analysis.SampleRows

/-- Every sample says whether the server was up. -/
theorem values_serve_up (prev : Option Sample) (s : Sample) :
    values "serve_up" (samplePoints prev s) ≠ [] := by
  rw [values_samplePoints]
  unfold headPoints
  rw [values_cons, if_pos rfl]
  simp

/-- A row in the table, as it is read. -/
def rollupAgg (db : RollupDb) (res : ℤ) (name : String) (b : ℤ) : Option Agg :=
  (db.rollup res name b).map RollupRow.agg

/-! ## The two histories of the tables -/

/-- A sample with the histograms scraped with it. -/
abbrev Scraped := Sample × Option HistSet

def liveFeeds (xs : List Scraped) : List Feed := xs.map fun x => ⟨x.1, x.2, true⟩

def replayFeeds (samples : List Sample) : List Feed :=
  samples.map fun s => { sample := s, replace := false }

/-- The tables after one pipeline was fed samples live, empty before. -/
def uninterrupted (xs : List Scraped) : RollupDb := (({} : Pipeline).pushAll {} (liveFeeds xs)).2

/-- Where the replay begins.
SOURCE: lss-collector/src/main.rs:393 -/
def openFrom (startedAt : ℤ) : ℤ := bucket res10m startedAt

/-- What is replayed at a start.
SOURCE: lss-collector/src/main.rs:394 -/
def replayed (stored : List Sample) (startedAt : ℤ) : List Sample :=
  (historyAtStart stored startedAt).filter fun s => openFrom startedAt ≤ s.ts

/-- The tables after a run that pushed some samples was stopped, and another one, started at
`startedAt` with the samples stored till then, replayed and went on. -/
def restarted (pushed : List Scraped) (stored : List Sample) (startedAt : ℤ)
    (post : List Scraped) : RollupDb :=
  let start := ({} : Pipeline).replay (uninterrupted pushed) (replayed stored startedAt)
  (start.1.pushAll start.2 (liveFeeds post)).2

theorem map_sample_liveFeeds (xs : List Scraped) :
    (liveFeeds xs).map Feed.sample = xs.map Prod.fst := by
  unfold liveFeeds
  rw [List.map_map]
  rfl

theorem map_sample_replayFeeds (samples : List Sample) :
    (replayFeeds samples).map Feed.sample = samples := by
  unfold replayFeeds
  rw [List.map_map]
  exact List.map_id _

section Rows

variable {res : ℤ} (hres : res ∈ [res1m, res10m]) {name : String} (hname : name ∉ latencyNames)
  (b : ℤ)

/-- What closes a bucket among feeds that all write alike. -/
theorem rowAfter_of_flag (name : String) {xs : List Fed} {replace : Bool}
    (hflag : ∀ x ∈ xs, x.1.replace = replace) (old : Option RollupRow) :
    (Closed time res b xs → rowAfter res name b xs old =
      combine replace (rowOf (held res b name xs)) old) ∧
    (¬ Closed time res b xs → rowAfter res name b xs old = old) := by
  unfold rowAfter
  rw [closed_iff_closer]
  cases hc : closer time res b xs with
  | none => simp
  | some x =>
      have hx : x ∈ xs := List.mem_of_find?_eq_some hc
      rw [← hflag x hx]
      simp [rowOf]

include hres hname in
/-- The rows of a pipeline that was never stopped. -/
theorem uninterrupted_row {xs : List Scraped} (h : Increasing (xs.map Prod.fst)) :
    (Closed Sample.ts res b (xs.map Prod.fst) → (uninterrupted xs).rollup res name b =
      rowOf (samplesHeld res b name none (xs.map Prod.fst))) ∧
    (¬ Closed Sample.ts res b (xs.map Prod.fst) →
      (uninterrupted xs).rollup res name b = none) := by
  have hmap := map_sample_liveFeeds xs
  have hflag : ∀ x ∈ withPoints none (liveFeeds xs), x.1.replace = true := by
    intro x hx
    obtain ⟨y, -, hy⟩ := List.mem_map.1 (time_of_mem_withPoints hx)
    rw [← hy]
  obtain ⟨-, hrows⟩ := pushAll_rows {} (liveFeeds xs)
    (inOrder_of_increasing (by rw [hmap]; exact h))
  have hrow : (uninterrupted xs).rollup res name b = _ := hrows res hres name hname b
  obtain ⟨hclosed, hopen⟩ := rowAfter_of_flag b name hflag none
  rw [closed_withPoints, hmap] at hclosed hopen
  rw [held_withPoints, hmap] at hclosed
  rw [hrow]
  refine ⟨fun hc => ?_, hopen⟩
  have := hclosed hc
  rw [show ({} : RollupDb).rollup res name b = none from rfl, this]
  exact Option.or_none

include hres hname in
/-- The rows after a restart: of a bucket that the replay closes, the row that was there, else
what the replayed and the live samples hold; of one that is closed live, the other way. -/
theorem restarted_row (pushed : List Scraped) (stored : List Sample) (startedAt : ℤ)
    (post : List Scraped)
    (h : Increasing (replayed stored startedAt ++ post.map Prod.fst)) :
    (restarted pushed stored startedAt post).rollup res name b =
      if Closed Sample.ts res b (replayed stored startedAt) then
        combine false (rowOf (samplesHeld res b name none
          (replayed stored startedAt ++ post.map Prod.fst)))
          ((uninterrupted pushed).rollup res name b)
      else if Closed Sample.ts res b (post.map Prod.fst) then
        combine true (rowOf (samplesHeld res b name none
          (replayed stored startedAt ++ post.map Prod.fst)))
          ((uninterrupted pushed).rollup res name b)
      else (uninterrupted pushed).rollup res name b := by
  set again := replayed stored startedAt with hagain
  set fs := replayFeeds again ++ liveFeeds post with hfs
  have hmap : fs.map Feed.sample = again ++ post.map Prod.fst := by
    rw [hfs, List.map_append, map_sample_replayFeeds, map_sample_liveFeeds]
  have hdb : restarted pushed stored startedAt post =
      (({} : Pipeline).pushAll (uninterrupted pushed) fs).2 := by
    rw [hfs, pushAll_append]
    rfl
  obtain ⟨-, hrows⟩ := pushAll_rows (uninterrupted pushed) fs
    (inOrder_of_increasing (by rw [hmap]; exact h))
  rw [hdb, hrows res hres name hname b]
  have hsplit : withPoints none fs = withPoints none (replayFeeds again) ++
      withPoints (((replayFeeds again).getLast?.map Feed.sample).or none) (liveFeeds post) := by
    rw [hfs, withPoints_append]
  have hheld : held res b name (withPoints none fs) =
      samplesHeld res b name none (again ++ post.map Prod.fst) := by
    rw [held_withPoints, hmap]
  have hagainclosed : Closed time res b (withPoints none (replayFeeds again)) ↔
      Closed Sample.ts res b ((replayFeeds again).map Feed.sample) := closed_withPoints
  rw [map_sample_replayFeeds] at hagainclosed
  have hpostclosed : Closed time res b (withPoints
        (((replayFeeds again).getLast?.map Feed.sample).or none) (liveFeeds post)) ↔
      Closed Sample.ts res b ((liveFeeds post).map Feed.sample) := closed_withPoints
  rw [map_sample_liveFeeds] at hpostclosed
  rw [closed_iff_closer] at hagainclosed hpostclosed
  unfold rowAfter
  rw [hheld, hsplit, closer_append]
  cases hc : closer time res b (withPoints none (replayFeeds again)) with
  | some x =>
      have hx := time_of_mem_withPoints (List.mem_of_find?_eq_some hc)
      obtain ⟨y, -, hy⟩ := List.mem_map.1 hx
      have hflag : x.1.replace = false := by rw [← hy]
      rw [if_pos (hagainclosed.1 (by rw [hc]; rfl))]
      simp only [Option.some_or, hflag]
      rfl
  | none =>
      have hopen : ¬ Closed Sample.ts res b again := by
        rw [← hagainclosed, hc]
        exact Bool.false_ne_true
      rw [if_neg hopen, Option.none_or]
      cases hc' : closer time res b (withPoints
          (((replayFeeds again).getLast?.map Feed.sample).or none) (liveFeeds post)) with
      | some x =>
          have hx := time_of_mem_withPoints (List.mem_of_find?_eq_some hc')
          obtain ⟨y, -, hy⟩ := List.mem_map.1 hx
          have hflag : x.1.replace = true := by rw [← hy]
          rw [if_pos (hpostclosed.1 (by rw [hc']; rfl))]
          simp only [hflag]
          rfl
      | none =>
          have hopen' : ¬ Closed Sample.ts res b (post.map Prod.fst) := by
            rw [← hpostclosed, hc']
            exact Bool.false_ne_true
          rw [if_neg hopen']

end Rows

/-! ## What a restart costs -/

/-- Whether a name is a metric of a sample. -/
def IsSampleMetric (name : String) : Prop := ∃ prev cur v, (name, v) ∈ samplePoints prev cur

theorem IsSampleMetric.plain {name : String} (h : IsSampleMetric name) : name ∉ latencyNames := by
  obtain ⟨prev, cur, v, hmem⟩ := h
  exact not_latency_of_mem_samplePoints hmem

/-- The first replayed sample, when it has points that it owes to the sample before it, which
is not replayed. -/
def StepLost (stored : List Sample) (startedAt : ℤ) (s : Sample) : Prop :=
  ∃ pre p post, stored = pre ++ p :: s :: post ∧ p.ts < openFrom startedAt ∧
    openFrom startedAt ≤ s.ts ∧ stepPoints p s ≠ []

/-- The condition under which a restart costs nothing: on both tiers, every bucket that is
closed in the end and holds a sample from before the start of the replay, or the first one
after it with what it owes to the sample before, was closed by the stopped run. -/
def OpenBucketsReplayed (pushed stored post : List Sample) (startedAt : ℤ) : Prop :=
  ∀ res ∈ [res1m, res10m], ∀ s ∈ stored, (s.ts < openFrom startedAt ∨ StepLost stored startedAt s) →
    Closed Sample.ts res (bucket res s.ts) (stored ++ post) →
      Closed Sample.ts res (bucket res s.ts) pushed

/-- What the collector relies on at a restart: samples are stored in order of time and pushed
in the order they are stored, the start is not before the last of them, and the run goes on
after it. -/
structure Stop (pushed : List Scraped) (stored : List Sample) (startedAt : ℤ)
    (post : List Scraped) : Prop where
  increasing : Increasing (stored ++ post.map Prod.fst)
  pushed_prefix : pushed.map Prod.fst <+: stored
  started : ∀ s ∈ stored, s.ts ≤ startedAt
  later : ∀ s ∈ post.map Prod.fst, startedAt ≤ s.ts

theorem openFrom_le (startedAt : ℤ) : openFrom startedAt ≤ startedAt := bucket_le (by decide) _

theorem lt_openFrom_add (startedAt : ℤ) : startedAt < openFrom startedAt + 600 :=
  lt_bucket_add (by decide) _

/-- What is replayed is what was stored from the start of the replay on. -/
theorem replayed_eq {stored : List Sample} {startedAt : ℤ} (increasing : Increasing stored)
    (started : ∀ s ∈ stored, s.ts ≤ startedAt) :
    replayed stored startedAt = stored.filter fun s => openFrom startedAt ≤ s.ts := by
  have hopen := lt_openFrom_add startedAt
  have hsecs : historySecs = 3600 := rfl
  have hstep : seriesStepSecs = 30 := rfl
  have hsince : Increasing (samplesSince stored (startedAt - historySecs)) := increasing.filter _
  unfold replayed historyAtStart
  cases hlast : (samplesSince stored (startedAt - historySecs)).getLast? with
  | none =>
      have hnil := List.getLast?_eq_none_iff.1 hlast
      rw [hnil]
      have hnone : stored.filter (fun s => decide (openFrom startedAt ≤ s.ts)) = [] := by
        unfold samplesSince at hnil
        rw [List.filter_eq_nil_iff] at hnil ⊢
        intro s hs
        have hold : ¬ startedAt - historySecs ≤ s.ts := by simpa using hnil s hs
        simp only [decide_eq_true_eq]
        omega
      rw [hnone]
      rfl
  | some last =>
      have hle := started last (List.mem_filter.1 (List.mem_of_getLast? hlast)).1
      rw [foldl_push hsince hlast]
      unfold samplesSince
      rw [List.filter_filter, List.filter_filter]
      apply List.filter_congr
      intro s _
      rw [← Bool.decide_and, ← Bool.decide_and]
      apply decide_eq_decide.2
      constructor
      · rintro ⟨⟨h, -⟩, -⟩
        exact h
      · intro h
        refine ⟨⟨h, ?_⟩, ?_⟩ <;> omega

/-! ## The rows of both histories, side by side -/

/-- A bucket from the start of the replay on is one from which the replay begins, too. -/
theorem openFrom_le_bucket_iff {res : ℤ} (hres : res ∈ [res1m, res10m]) (startedAt t : ℤ) :
    openFrom startedAt ≤ bucket res t ↔ openFrom startedAt ≤ t := by
  apply le_bucket_iff (pos_of_mem hres)
  have hdvd : res10m ∣ openFrom startedAt := bucket_dvd _
  rcases List.mem_pair.1 hres with rfl | rfl
  · exact Dvd.dvd.trans (by decide : res1m ∣ res10m) hdvd
  · exact hdvd

section Stop

variable {pushed : List Scraped} {stored : List Sample} {startedAt : ℤ} {post : List Scraped}
  (hstop : Stop pushed stored startedAt post)
include hstop

theorem Stop.stored_increasing : Increasing stored := hstop.increasing.of_append.1

/-- The samples that are not replayed. -/
theorem Stop.split : stored = stored.filter (fun s => s.ts < openFrom startedAt) ++
    replayed stored startedAt := by
  rw [replayed_eq hstop.stored_increasing hstop.started]
  exact hstop.stored_increasing.split _

theorem Stop.mem_replayed {s : Sample} :
    s ∈ replayed stored startedAt ↔ s ∈ stored ∧ openFrom startedAt ≤ s.ts := by
  rw [replayed_eq hstop.stored_increasing hstop.started, List.mem_filter]
  simp

theorem Stop.again_increasing :
    Increasing (replayed stored startedAt ++ post.map Prod.fst) := by
  have h := hstop.increasing
  rw [hstop.split, List.append_assoc] at h
  exact h.of_append.2.1

/-- Every sample the new run sees is of a bucket from the start of the replay on. -/
theorem Stop.openFrom_le_of_mem {s : Sample}
    (hs : s ∈ replayed stored startedAt ++ post.map Prod.fst) : openFrom startedAt ≤ s.ts := by
  rcases List.mem_append.1 hs with hs | hs
  · exact (hstop.mem_replayed.1 hs).2
  · exact (openFrom_le startedAt).trans (hstop.later s hs)

theorem Stop.pushed_increasing : Increasing (pushed.map Prod.fst) :=
  hstop.stored_increasing.sublist hstop.pushed_prefix.sublist

/-- A bucket that the stopped run closed holds what it holds in the end. -/
theorem Stop.samplesHeld_pushed {res : ℤ} (hres : res ∈ [res1m, res10m]) {b : ℤ} (name : String)
    (hclosed : Closed Sample.ts res b (pushed.map Prod.fst)) :
    samplesHeld res b name none (stored ++ post.map Prod.fst) =
      samplesHeld res b name none (pushed.map Prod.fst) := by
  obtain ⟨rest, hrest⟩ := hstop.pushed_prefix
  obtain ⟨x, hx, hlater⟩ := hclosed
  have hincreasing := hstop.increasing
  rw [← hrest, List.append_assoc] at hincreasing
  rw [← hrest, List.append_assoc, samplesHeld_append]
  have hnone : samplesHeld res b name ((pushed.map Prod.fst).getLast?.or none)
      (rest ++ post.map Prod.fst) = [] := by
    apply samplesHeld_eq_nil
    intro y hy heq
    have hlt := hincreasing.of_append.2.2 x hx y hy
    have hmono := bucket_mono (pos_of_mem hres) hlt.le
    omega
  rw [hnone, List.append_nil]

omit hstop in
theorem closed_of_prefix {res b : ℤ} {xs ys : List Sample} (h : xs <+: ys)
    (hclosed : Closed Sample.ts res b xs) : Closed Sample.ts res b ys := by
  obtain ⟨x, hx, hlt⟩ := hclosed
  exact ⟨x, h.subset hx, hlt⟩

theorem Stop.closed_all {res b : ℤ} (h : Closed Sample.ts res b (pushed.map Prod.fst)) :
    Closed Sample.ts res b (stored ++ post.map Prod.fst) :=
  closed_of_prefix (hstop.pushed_prefix.trans (List.prefix_append _ _)) h

/-- The row the stopped run left, in terms of all samples. -/
theorem Stop.pushed_row {res : ℤ} (hres : res ∈ [res1m, res10m]) {name : String}
    (hname : name ∉ latencyNames) (b : ℤ) :
    (uninterrupted pushed).rollup res name b =
      if Closed Sample.ts res b (pushed.map Prod.fst) then
        rowOf (samplesHeld res b name none (stored ++ post.map Prod.fst)) else none := by
  obtain ⟨hclosed, hopen⟩ := uninterrupted_row hres hname b hstop.pushed_increasing
  split
  · next h => rw [hclosed h, hstop.samplesHeld_pushed hres name h]
  · next h => exact hopen h

/-- In a bucket from before the replay the new run holds nothing. -/
theorem Stop.again_before {res : ℤ} (hres : res ∈ [res1m, res10m]) {b : ℤ} (name : String)
    (prev : Option Sample) (hb : b < openFrom startedAt) :
    samplesHeld res b name prev (replayed stored startedAt ++ post.map Prod.fst) = [] := by
  apply samplesHeld_eq_nil
  intro s hs heq
  have hle := hstop.openFrom_le_of_mem hs
  rw [← openFrom_le_bucket_iff hres] at hle
  omega

/-- In a bucket from the replay on, only what the new run sees counts. -/
theorem Stop.all_after {res : ℤ} (hres : res ∈ [res1m, res10m]) {b : ℤ} (name : String)
    (hb : openFrom startedAt ≤ b) :
    samplesHeld res b name none (stored ++ post.map Prod.fst) =
      samplesHeld res b name (stored.filter fun s => s.ts < openFrom startedAt).getLast?
        (replayed stored startedAt ++ post.map Prod.fst) := by
  conv_lhs => rw [hstop.split, List.append_assoc, samplesHeld_append]
  have hnone : samplesHeld res b name none
      (stored.filter fun s => s.ts < openFrom startedAt) = [] := by
    apply samplesHeld_eq_nil
    intro s hs heq
    have hlt : s.ts < openFrom startedAt := by simpa using (List.mem_filter.1 hs).2
    have hle := bucket_le (pos_of_mem hres) s.ts
    omega
  rw [hnone, List.nil_append, Option.or_none]

/-- A bucket from the replay on is closed in the end exactly when the new run closes it. -/
theorem Stop.closed_all_iff {res : ℤ} (hres : res ∈ [res1m, res10m]) {b : ℤ}
    (hb : openFrom startedAt ≤ b) :
    Closed Sample.ts res b (stored ++ post.map Prod.fst) ↔
      Closed Sample.ts res b (replayed stored startedAt) ∨
        Closed Sample.ts res b (post.map Prod.fst) := by
  constructor
  · rintro ⟨x, hx, hlt⟩
    rcases List.mem_append.1 hx with hx | hx
    · left
      refine ⟨x, hstop.mem_replayed.2 ⟨hx, ?_⟩, hlt⟩
      have hle := bucket_le (pos_of_mem hres) x.ts
      omega
    · exact Or.inr ⟨x, hx, hlt⟩
  · rintro (⟨x, hx, hlt⟩ | ⟨x, hx, hlt⟩)
    · exact ⟨x, List.mem_append_left _ (hstop.mem_replayed.1 hx).1, hlt⟩
    · exact ⟨x, List.mem_append_right _ hx, hlt⟩

/-- The row after a restart, in a bucket from before the replay: what the stopped run left. -/
theorem Stop.row_before {res : ℤ} (hres : res ∈ [res1m, res10m]) {name : String}
    (hname : name ∉ latencyNames) {b : ℤ} (hb : b < openFrom startedAt) :
    (restarted pushed stored startedAt post).rollup res name b =
      (uninterrupted pushed).rollup res name b := by
  rw [restarted_row hres hname b pushed stored startedAt post hstop.again_increasing,
    hstop.again_before hres name none hb]
  have hnone : rowOf [] = none := rfl
  rw [hnone, combine_none, combine_none]
  split
  · rfl
  · split <;> rfl

/-- The row after a restart, in a bucket from the replay on that is closed in the end. -/
theorem Stop.row_after {res : ℤ} (hres : res ∈ [res1m, res10m]) {name : String}
    (hname : name ∉ latencyNames) {b : ℤ} (hb : openFrom startedAt ≤ b)
    (hclosed : Closed Sample.ts res b (stored ++ post.map Prod.fst)) :
    ∃ replace, (Closed Sample.ts res b (replayed stored startedAt) → replace = false) ∧
      (restarted pushed stored startedAt post).rollup res name b =
        combine replace (rowOf (samplesHeld res b name none
          (replayed stored startedAt ++ post.map Prod.fst)))
          ((uninterrupted pushed).rollup res name b) := by
  rw [restarted_row hres hname b pushed stored startedAt post hstop.again_increasing]
  by_cases hagain : Closed Sample.ts res b (replayed stored startedAt)
  · exact ⟨false, fun _ => rfl, if_pos hagain⟩
  · have hpost := ((hstop.closed_all_iff hres hb).1 hclosed).resolve_left hagain
    refine ⟨true, fun h => absurd h hagain, ?_⟩
    rw [if_neg hagain, if_pos hpost]

end Stop

/-- Aggregates that are the same are of equally many values. -/
theorem length_eq_of_aggOf {vs ws : List ℚ} (h : aggOf vs = aggOf ws) :
    vs.length = ws.length := by
  cases hvs : aggOf vs with
  | none =>
      rw [hvs] at h
      rw [aggOf_eq_none.1 hvs, aggOf_eq_none.1 h.symm]
  | some a =>
      have hws : aggOf ws = some a := by rw [← h, hvs]
      have hlength : (vs.length : ℚ) = ws.length := by
        rw [← (sum_and_n_of_aggOf hvs).2, ← (sum_and_n_of_aggOf hws).2]
      exact_mod_cast hlength

/-- The sample before the first has to do only with what the first holds of its step. -/
theorem samplesHeld_prev {res b : ℤ} {name : String} {prev : Option Sample}
    {samples : List Sample}
    (h : samplesHeld res b name prev samples ≠ samplesHeld res b name none samples) :
    ∃ p s rest, prev = some p ∧ samples = s :: rest ∧ bucket res s.ts = b ∧ stepPoints p s ≠ [] ∧
      samplesHeld res b name prev samples ≠ [] := by
  cases samples with
  | nil => exact absurd rfl h
  | cons s rest =>
      cases prev with
      | none => exact absurd rfl h
      | some p =>
          refine ⟨p, s, rest, rfl, rfl, ?_⟩
          unfold samplesHeld at h ⊢
          rw [values_samplePoints, values_samplePoints] at h
          rw [values_samplePoints]
          by_cases hb : bucket res s.ts = b
          · rw [if_pos hb, if_pos hb] at h
            rw [if_pos hb]
            refine ⟨hb, ?_, ?_⟩
            · intro hnil
              apply h
              rw [Option.elim_some, hnil]
              rfl
            · intro hnil
              apply h
              rw [hnil]
              simp only [List.append_eq_nil_iff] at hnil
              obtain ⟨⟨hhead, -, htail⟩, hrest⟩ := hnil
              rw [hhead, htail, hrest]
              rfl
          · rw [if_neg hb, if_neg hb] at h
            exact absurd rfl h

/-- Where the replay begins between two samples, they are the last that is not replayed and the
first that is. -/
theorem split_at_open {stored pre rest : List Sample} {p s : Sample} {t : ℤ}
    (increasing : Increasing stored) (h : stored = pre ++ p :: s :: rest) (hp : p.ts < t)
    (hs : t ≤ s.ts) :
    (stored.filter fun x => x.ts < t) = pre ++ [p] ∧
      (stored.filter fun x => t ≤ x.ts) = s :: rest := by
  rw [show pre ++ p :: s :: rest = (pre ++ [p]) ++ (s :: rest) by simp] at h
  rw [h] at increasing ⊢
  obtain ⟨hbefore, hafter, -⟩ := increasing.of_append
  have hlow : ∀ x ∈ pre ++ [p], x.ts < t := by
    intro x hx
    rcases List.mem_append.1 hx with hx | hx
    · have hlt := hbefore.of_append.2.2 x hx p (by simp)
      omega
    · rw [List.mem_singleton.1 hx]
      exact hp
  have hhigh : ∀ x ∈ s :: rest, t ≤ x.ts := by
    intro x hx
    rcases List.mem_cons.1 hx with rfl | hx
    · exact hs
    · unfold Increasing at hafter
      have hlt := (List.pairwise_cons.1 hafter).1 x hx
      omega
  have hlow_self : (pre ++ [p]).filter (fun x => decide (x.ts < t)) = pre ++ [p] :=
    List.filter_eq_self.2 fun x hx => by simpa using hlow x hx
  have hlow_nil : (pre ++ [p]).filter (fun x => decide (t ≤ x.ts)) = [] :=
    List.filter_eq_nil_iff.2 fun x hx => by simpa using hlow x hx
  have hhigh_nil : (s :: rest).filter (fun x => decide (x.ts < t)) = [] :=
    List.filter_eq_nil_iff.2 fun x hx => by simpa using hhigh x hx
  have hhigh_self : (s :: rest).filter (fun x => decide (t ≤ x.ts)) = s :: rest :=
    List.filter_eq_self.2 fun x hx => by simpa using hhigh x hx
  rw [List.filter_append (pre ++ [p]), List.filter_append (pre ++ [p]), hlow_self, hlow_nil,
    hhigh_nil, hhigh_self]
  exact ⟨List.append_nil _, List.nil_append _⟩

section Equivalence

variable {pushed stored post : List Scraped} {startedAt : ℤ}
  (hstop : Stop pushed (stored.map Prod.fst) startedAt post)
include hstop

theorem Stop.uninterrupted_row {res : ℤ} (hres : res ∈ [res1m, res10m]) {name : String}
    (hname : name ∉ latencyNames) (b : ℤ) :
    (uninterrupted (stored ++ post)).rollup res name b =
      if Closed Sample.ts res b (stored.map Prod.fst ++ post.map Prod.fst) then
        rowOf (samplesHeld res b name none (stored.map Prod.fst ++ post.map Prod.fst))
      else none := by
  have hmap : (stored ++ post).map Prod.fst = stored.map Prod.fst ++ post.map Prod.fst :=
    List.map_append
  have hincreasing : Increasing ((stored ++ post).map Prod.fst) := by
    rw [hmap]
    exact hstop.increasing
  obtain ⟨hclosed, hopen⟩ := RollupRestart.uninterrupted_row hres hname b hincreasing
  rw [hmap] at hclosed hopen
  split
  · next h => exact hclosed h
  · next h => exact hopen h

/-- A bucket from before the replay loses its row when the stopped run had not closed it. -/
theorem Stop.row_eq_before {res : ℤ} (hres : res ∈ [res1m, res10m]) {name : String}
    (hname : name ∉ latencyNames) {b : ℤ} (hb : b < openFrom startedAt)
    (hcond : OpenBucketsReplayed (pushed.map Prod.fst) (stored.map Prod.fst)
      (post.map Prod.fst) startedAt) :
    (restarted pushed (stored.map Prod.fst) startedAt post).rollup res name b =
      (uninterrupted (stored ++ post)).rollup res name b := by
  rw [hstop.row_before hres hname hb, hstop.pushed_row hres hname b,
    hstop.uninterrupted_row hres hname b]
  by_cases hpushed : Closed Sample.ts res b (pushed.map Prod.fst)
  · rw [if_pos hpushed, if_pos (hstop.closed_all hpushed)]
  · rw [if_neg hpushed]
    split
    · next hall =>
        have hnone : samplesHeld res b name none
            (stored.map Prod.fst ++ post.map Prod.fst) = [] := by
          apply samplesHeld_eq_nil
          intro s hs heq
          have hlt : s.ts < openFrom startedAt := by
            rw [← not_le, ← openFrom_le_bucket_iff hres, heq]
            omega
          have hmem : s ∈ stored.map Prod.fst := by
            rcases List.mem_append.1 hs with hs | hs
            · exact hs
            · have hle := hstop.openFrom_le_of_mem (List.mem_append_right _ hs)
              omega
          rw [← heq] at hall hpushed
          exact hpushed (hcond res hres s hmem (Or.inl hlt) hall)
        rw [hnone]
        rfl
    · rfl

/-- A bucket from the replay on keeps its row. -/
theorem Stop.row_eq_after {res : ℤ} (hres : res ∈ [res1m, res10m]) {name : String}
    (hname : name ∉ latencyNames) {b : ℤ} (hb : openFrom startedAt ≤ b)
    (hcond : OpenBucketsReplayed (pushed.map Prod.fst) (stored.map Prod.fst)
      (post.map Prod.fst) startedAt) :
    (restarted pushed (stored.map Prod.fst) startedAt post).rollup res name b =
      (uninterrupted (stored ++ post)).rollup res name b := by
  have hpos := pos_of_mem hres
  rw [hstop.uninterrupted_row hres hname b]
  by_cases hall : Closed Sample.ts res b (stored.map Prod.fst ++ post.map Prod.fst)
  · obtain ⟨replace, hreplace, hrow⟩ := hstop.row_after hres hname hb hall
    rw [hrow, hstop.pushed_row hres hname b, if_pos hall, hstop.all_after hres name hb]
    set again := samplesHeld res b name none
      (replayed (stored.map Prod.fst) startedAt ++ post.map Prod.fst) with hagain
    set full := samplesHeld res b name
      ((stored.map Prod.fst).filter fun s => s.ts < openFrom startedAt).getLast?
      (replayed (stored.map Prod.fst) startedAt ++ post.map Prod.fst) with hfull
    by_cases hsame : full = again
    · rw [hsame]
      cases replace <;> by_cases hp : Closed Sample.ts res b (pushed.map Prod.fst) <;>
        simp only [combine, hp, if_true, if_false, Option.or_none, Option.none_or, Option.or_self,
          Bool.false_eq_true]
    · -- the first sample the new run sees owes points to the one before it
      obtain ⟨p, s, rest, hprev, hsplit, hbucket, hstep, hne⟩ := samplesHeld_prev hsame
      have hplow : p ∈ stored.map Prod.fst ∧ p.ts < openFrom startedAt := by
        have hmem := List.mem_filter.1 (List.mem_of_getLast? hprev)
        exact ⟨hmem.1, by simpa using hmem.2⟩
      cases hre : replayed (stored.map Prod.fst) startedAt with
      | cons s' rest' =>
          have hs : s' = s := by
            rw [hre] at hsplit
            exact (List.cons.inj hsplit).1
          subst hs
          have hshigh := hstop.openFrom_le_of_mem (s := s') (by rw [hre]; simp)
          have hsstored : s' ∈ stored.map Prod.fst :=
            (hstop.mem_replayed.1 (by rw [hre]; simp)).1
          have hlost : StepLost (stored.map Prod.fst) startedAt s' := by
            obtain ⟨pre, hpre⟩ := List.getLast?_eq_some_iff.1 hprev
            refine ⟨pre, p, rest', ?_, hplow.2, hshigh, hstep⟩
            rw [hstop.split, hre, hpre]
            simp
          have hpushed : Closed Sample.ts res b (pushed.map Prod.fst) := by
            rw [← hbucket] at hall ⊢
            exact hcond res hres s' hsstored (Or.inr hlost) hall
          have hclosed : Closed Sample.ts res b (replayed (stored.map Prod.fst) startedAt) := by
            obtain ⟨x, hx, hlt⟩ := hpushed
            refine ⟨x, hstop.mem_replayed.2 ⟨hstop.pushed_prefix.subset hx, ?_⟩, hlt⟩
            have hle := bucket_le hpos x.ts
            omega
          rw [hreplace hclosed, if_pos hpushed]
          cases hrow' : rowOf full with
          | none =>
              unfold rowOf at hrow'
              rw [Option.map_eq_none_iff, aggOf_eq_none] at hrow'
              exact absurd hrow' hne
          | some row => rfl
      | nil =>
          -- nothing was replayed: the bucket of the sample before is lost altogether
          have hsplit' : post.map Prod.fst = s :: rest := by
            rw [hre] at hsplit
            exact hsplit
          have hshigh := hstop.openFrom_le_of_mem (s := s) (by rw [hsplit]; simp)
          have hplt : bucket res p.ts < openFrom startedAt := by
            have hle := bucket_le hpos p.ts
            omega
          have hpall : Closed Sample.ts res (bucket res p.ts)
              (stored.map Prod.fst ++ post.map Prod.fst) := by
            refine ⟨s, List.mem_append_right _ (by rw [hsplit']; simp), ?_⟩
            have hge := (openFrom_le_bucket_iff hres startedAt s.ts).2 hshigh
            omega
          obtain ⟨x, hx, hlt⟩ := hcond res hres p hplow.1 (Or.inl hplow.2) hpall
          have hxlow : x ∈ (stored.map Prod.fst).filter fun s => s.ts < openFrom startedAt := by
            have hmem := hstop.pushed_prefix.subset hx
            rw [List.mem_filter]
            refine ⟨hmem, ?_⟩
            have hnot : ¬ openFrom startedAt ≤ x.ts := fun hle => by
              have hin := hstop.mem_replayed.2 ⟨hmem, hle⟩
              rw [hre] at hin
              simp at hin
            simpa using hnot
          obtain ⟨pre, hpre⟩ := List.getLast?_eq_some_iff.1 hprev
          have hle : x.ts ≤ p.ts := by
            rw [hpre] at hxlow
            rcases List.mem_append.1 hxlow with hx' | hx'
            · have hinc : Increasing (pre ++ [p]) := by
                rw [← hpre]
                exact hstop.stored_increasing.filter _
              exact (hinc.of_append.2.2 x hx' p (by simp)).le
            · rw [List.mem_singleton.1 hx']
          have hmono := bucket_mono hpos hle
          omega
  · rw [if_neg hall, restarted_row hres hname b _ _ _ _ hstop.again_increasing,
      hstop.pushed_row hres hname b]
    rw [hstop.closed_all_iff hres hb, not_or] at hall
    have hpushed : ¬ Closed Sample.ts res b (pushed.map Prod.fst) := fun h => by
      have := (hstop.closed_all_iff hres hb).1 (hstop.closed_all h)
      exact this.elim hall.1 hall.2
    rw [if_neg hall.1, if_neg hall.2, if_neg hpushed]

/-- Where the rows are the same, every bucket that the replay cannot rebuild was closed. -/
theorem Stop.closed_of_rows (hrows : ∀ res ∈ [res1m, res10m], ∀ name, IsSampleMetric name → ∀ b,
      rollupAgg (restarted pushed (stored.map Prod.fst) startedAt post) res name b =
        rollupAgg (uninterrupted (stored ++ post)) res name b) :
    OpenBucketsReplayed (pushed.map Prod.fst) (stored.map Prod.fst) (post.map Prod.fst)
      startedAt := by
  intro res hres s hs hlost hall
  by_contra hpushed
  rcases hlost with hlow | ⟨pre, p, rest, hsplit, hp, hhigh, hstep⟩
  · have hb : bucket res s.ts < openFrom startedAt := by
      have hle := bucket_le (pos_of_mem hres) s.ts
      omega
    have hmetric : IsSampleMetric "serve_up" :=
      ⟨none, s, indicator s.serveUp, by simp [samplePoints, headPoints]⟩
    have hrow := hrows res hres "serve_up" hmetric (bucket res s.ts)
    unfold rollupAgg at hrow
    rw [hstop.row_before hres hmetric.plain hb, hstop.pushed_row hres hmetric.plain,
      if_neg hpushed, hstop.uninterrupted_row hres hmetric.plain, if_pos hall, rowOf_agg] at hrow
    have hnil := aggOf_eq_none.1 hrow.symm
    obtain ⟨xs, ys, hxs⟩ := List.append_of_mem hs
    rw [hxs, List.append_assoc, samplesHeld_append, List.cons_append, samplesHeld,
      if_pos rfl] at hnil
    simp only [List.append_eq_nil_iff] at hnil
    exact values_serve_up _ _ hnil.2.1
  · have hb : openFrom startedAt ≤ bucket res s.ts :=
      (openFrom_le_bucket_iff hres startedAt s.ts).2 hhigh
    obtain ⟨⟨name, v⟩, rest', hnames⟩ := List.exists_cons_of_ne_nil hstep
    have hvalues : values name (stepPoints p s) ≠ [] := by
      rw [hnames, values_cons, if_pos rfl]
      simp
    have hmetric : IsSampleMetric name := ⟨some p, s, v, by simp [samplePoints, hnames]⟩
    have hrow := hrows res hres name hmetric (bucket res s.ts)
    obtain ⟨hbefore, hafter⟩ := split_at_open hstop.stored_increasing hsplit hp hhigh
    have hre : replayed (stored.map Prod.fst) startedAt = s :: rest := by
      rw [replayed_eq hstop.stored_increasing hstop.started]
      exact hafter
    obtain ⟨replace, -, hagain⟩ := hstop.row_after hres hmetric.plain hb hall
    unfold rollupAgg at hrow
    rw [hagain, hstop.pushed_row hres hmetric.plain, if_neg hpushed,
      hstop.uninterrupted_row hres hmetric.plain, if_pos hall, hstop.all_after hres name hb,
      hbefore, List.getLast?_concat, hre] at hrow
    have hcombine : ∀ row : Option RollupRow, combine replace row none = row := by
      intro row
      cases replace <;> simp [combine]
    rw [hcombine, rowOf_agg, rowOf_agg] at hrow
    have hlength := length_eq_of_aggOf hrow
    rw [List.cons_append, samplesHeld, samplesHeld, if_pos rfl, if_pos rfl, values_samplePoints,
      values_samplePoints] at hlength
    simp only [List.length_append, Option.elim_some, Option.elim_none] at hlength
    have hpositive := List.length_pos_iff.2 hvalues
    have hzero : (values name []).length = 0 := rfl
    omega

end Equivalence

/-- For every sequence of stored samples, every stop and every later start: the rows of the
stopped run and of the run that replayed and went on are those of one pipeline that was never
stopped, on both tiers and for every metric of a sample, exactly when every bucket that the
replay cannot rebuild was closed by the stopped run. -/
theorem restart_loses_nothing_iff (pushed stored post : List Scraped) (startedAt : ℤ)
    (hstop : Stop pushed (stored.map Prod.fst) startedAt post) :
    (∀ res ∈ [res1m, res10m], ∀ name, IsSampleMetric name → ∀ b,
      rollupAgg (restarted pushed (stored.map Prod.fst) startedAt post) res name b =
        rollupAgg (uninterrupted (stored ++ post)) res name b) ↔
    OpenBucketsReplayed (pushed.map Prod.fst) (stored.map Prod.fst) (post.map Prod.fst)
      startedAt := by
  refine ⟨hstop.closed_of_rows, ?_⟩
  intro hcond res hres name hname b
  unfold rollupAgg
  rcases lt_or_ge b (openFrom startedAt) with hb | hb
  · rw [hstop.row_eq_before hres hname.plain hb hcond]
  · rw [hstop.row_eq_after hres hname.plain hb hcond]

/-- A sample in which the server was up and nothing else was read. -/
def upAt (ts : ℤ) : Scraped := ({ ts, serveUp := true }, none)

theorem stop_mid_minute : Stop [upAt 1200, upAt 1205] ([upAt 1200, upAt 1205].map Prod.fst) 1210
    [upAt 1215, upAt 1270] where
  increasing := by simp [Increasing, upAt]
  pushed_prefix := List.prefix_refl _
  started := by simp [upAt]
  later := by simp [upAt]

/-- A stop and a start within ten minutes cost nothing. -/
theorem restart_within_ten_minutes :
    rollupAgg (restarted [upAt 1200, upAt 1205] ([upAt 1200, upAt 1205].map Prod.fst) 1210
        [upAt 1215, upAt 1270]) res1m "serve_up" 1200 =
      rollupAgg (uninterrupted ([upAt 1200, upAt 1205] ++ [upAt 1215, upAt 1270])) res1m
        "serve_up" 1200 := by
  have hopen : openFrom 1210 = 1200 := rfl
  have hcond : OpenBucketsReplayed ([upAt 1200, upAt 1205].map Prod.fst)
      ([upAt 1200, upAt 1205].map Prod.fst) ([upAt 1215, upAt 1270].map Prod.fst) 1210 := by
    have hall : ∀ s ∈ [upAt 1200, upAt 1205].map Prod.fst, 1200 ≤ s.ts := by simp [upAt]
    rintro res - s hs (hlow | ⟨pre, p, rest, hsplit, hp, -, -⟩)
    · have hge := hall s hs
      omega
    · have hge := hall p (by rw [hsplit]; simp)
      omega
  exact (restart_loses_nothing_iff _ _ _ 1210 stop_mid_minute).2 hcond res1m (by simp) "serve_up"
    ⟨none, (upAt 1200).1, 1, by decide +kernel⟩ 1200

/-- A stop just before a round ten minutes and a start just after it cost the minute that was
open. -/
theorem open_minute_lost :
    rollupAgg (restarted [upAt 1195] ([upAt 1195].map Prod.fst) 1201 [upAt 1205, upAt 1270]) res1m
        "serve_up" 1140 = none ∧
      rollupAgg (uninterrupted ([upAt 1195] ++ [upAt 1205, upAt 1270])) res1m "serve_up" 1140 =
        some ⟨1, 1, 1, 1⟩ := by
  decide +kernel

end Lss.Analysis.RollupRestart
