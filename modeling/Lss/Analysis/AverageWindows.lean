import Mathlib.Algebra.Order.Ring.Prod
import Mathlib.Tactic.Abel
import Mathlib.Tactic.FieldSimp
import Mathlib.Tactic.Linarith
import Lss.Library.Steps
import Lss.Model.History
import Mathlib.Data.Int.ConditionallyCompleteOrder
import Mathlib.Order.Lattice.Nat

/-!
# The average of the last ten minutes

The average of a histogram is read off two samples, the first with metrics in the window and the
last one kept. Across restarts of the engine the totals start over, so that this comparison leaves
out what the runs that ended in the window had counted; and where the window has no metrics at all
it is with nothing that the last totals kept are compared. What is left out does no harm exactly
where its average is that of the whole window.
-/

set_option autoImplicit false

namespace Lss.Analysis.AverageWindows

open Lss.Library.Steps Lss.Model

/-- A sum and a count at a time. -/
abbrev Reading := ℤ × (ℚ × ℚ)

variable (run : ℤ → ℕ) (pick : ServeMetrics → ℚ × ℚ)

/-! ## What the window has seen -/

/-- The readings of the ten minutes up to now. -/
def readings (now : ℤ) (samples : List Sample) : List Reading :=
  (samples.filter fun s => now - rateWindowSecs ≤ s.ts ∧ s.ts ≤ now).filterMap fun s =>
    s.metrics.map fun m => (s.ts, pick m)

/-- What a histogram grew by from a reading to the next. A new run of the engine starts from zero.
`run` is which run of the engine a time falls into. -/
def stepGrowth (p : Reading × Reading) : ℚ × ℚ :=
  if run p.1.1 = run p.2.1 then p.2.2 - p.1.2 else p.2.2

def growth (rs : List Reading) : ℚ × ℚ := ((steps rs).map (stepGrowth run)).sum

/-- The average that a growth of the sum and of the count amounts to, in milliseconds. -/
def averageMs (grown : ℚ × ℚ) : Option ℚ :=
  if grown.2 = 0 then none else some (1000 * (grown.1 / grown.2))

/-- A histogram of an engine that is started again any number of times: it never goes down while
the engine runs, and starts over with it. -/
structure EngineRuns (samples : List Sample) : Prop where
  nonneg : ∀ s ∈ samples, ∀ m, s.metrics = some m → 0 ≤ pick m
  grows : ∀ s ∈ samples, ∀ t ∈ samples, s.ts ≤ t.ts → run s.ts = run t.ts →
    ∀ m, s.metrics = some m → ∀ n, t.metrics = some n → pick m ≤ pick n

/-! ## What the comparison leaves out -/

/-- What the runs that ended between readings had come to. -/
def ended (rs : List Reading) : ℚ × ℚ :=
  ((steps rs).map fun p => if run p.1.1 = run p.2.1 then 0 else p.1.2).sum

/-- What is left out of the growth from a first reading on. Where the totals have gone down from
the first reading to the last, the last ones are taken whole. -/
def leftOut (first : Reading) (rest : List Reading) : ℚ × ℚ :=
  if first.2 ≤ ((first :: rest).getLast (List.cons_ne_nil _ _)).2 then ended run (first :: rest)
  else ended run (first :: rest) - first.2

/-- The average of the last ten minutes is what is shown: without metrics in the window there is
nothing counted in those kept, and otherwise nothing has grown, or what is left out is less than
everything and has the average of the whole. -/
def KeepsAverage (now : ℤ) (samples : List Sample) : Prop :=
  match readings pick now samples with
  | [] => ∀ m, (samples.foldl History.push []).reverse.findSome? Sample.metrics = some m →
      (pick m).2 = 0
  | first :: rest =>
    (growth run (first :: rest)).2 = 0 ∨
      ((leftOut run first rest).2 < (growth run (first :: rest)).2 ∧
        (leftOut run first rest).1 * (growth run (first :: rest)).2 =
          (growth run (first :: rest)).1 * (leftOut run first rest).2)

variable {run pick}

/-- The growth is the last reading less the first one, and what the ended runs had come to. -/
theorem growth_eq (first : Reading) (rest : List Reading) :
    growth run (first :: rest) =
      ((first :: rest).getLast (List.cons_ne_nil _ _)).2 - first.2 + ended run (first :: rest) := by
  rw [← sum_steps_sub (fun r : Reading => r.2), growth, ended, ← List.sum_map_add]
  apply congrArg (fun f => ((steps (first :: rest)).map f).sum)
  funext p
  by_cases same : run p.1.1 = run p.2.1 <;> simp [stepGrowth, same]

/-- Readings of an engine that is started again now and then. -/
structure Runs (run : ℤ → ℕ) (rs : List Reading) : Prop where
  nonneg : ∀ r ∈ rs, 0 ≤ r.2
  grows : rs.Pairwise fun r s => run r.1 = run s.1 → r.2 ≤ s.2

theorem Runs.tail {r : Reading} {rs : List Reading} (h : Runs run (r :: rs)) : Runs run rs :=
  ⟨fun s hs => h.nonneg s (List.mem_cons_of_mem _ hs), (List.pairwise_cons.mp h.grows).2⟩

theorem ended_nonneg {rs : List Reading} (h : Runs run rs) : 0 ≤ ended run rs := by
  apply List.sum_nonneg
  intro q hq
  obtain ⟨p, hp, rfl⟩ := List.mem_map.mp hq
  split
  · exact le_rfl
  · exact h.nonneg p.1 (mem_of_mem_steps hp).1

theorem ended_cons (r s : Reading) (rs : List Reading) :
    ended run (r :: s :: rs) = (if run r.1 = run s.1 then 0 else r.2) + ended run (s :: rs) := by
  simp [ended, steps]

/-- Unless the totals came back to where they were, the first run ended above where it was first
read. -/
theorem first_le (first : Reading) (rest : List Reading) (h : Runs run (first :: rest)) :
    first.2 ≤ ((first :: rest).getLast (List.cons_ne_nil _ _)).2 ∨
      first.2 ≤ ended run (first :: rest) := by
  induction rest generalizing first with
  | nil => exact Or.inl le_rfl
  | cons s rest ih =>
      rw [List.getLast_cons_cons, ended_cons]
      have hend : 0 ≤ ended run (s :: rest) := ended_nonneg h.tail
      by_cases same : run first.1 = run s.1
      · have hgrown : first.2 ≤ s.2 := (List.pairwise_cons.mp h.grows).1 s (by simp) same
        rw [if_pos same, zero_add]
        exact (ih s h.tail).imp (le_trans hgrown) (le_trans hgrown)
      · rw [if_neg same]
        exact Or.inr (le_add_of_nonneg_right hend)

theorem leftOut_nonneg {first : Reading} {rest : List Reading} (h : Runs run (first :: rest)) :
    0 ≤ leftOut run first rest := by
  unfold leftOut
  split
  · exact ended_nonneg h
  case isFalse fell =>
    exact sub_nonneg.mpr ((first_le first rest h).resolve_left fell)

/-! ## What the window reads -/

section Window

variable {now : ℤ} {samples : List Sample} (increasing : Increasing samples)
  (upToNow : ∀ s ∈ samples, s.ts ≤ now)

include increasing

theorem increasing_history : Increasing (samples.foldl History.push []) := by
  cases hlast : samples.getLast? with
  | none =>
      rw [List.getLast?_eq_none_iff.mp hlast]
      exact List.Pairwise.nil
  | some last =>
      rw [foldl_push increasing hlast]
      exact increasing.filter _

theorem mem_of_mem_history {s : Sample} (h : s ∈ samples.foldl History.push []) : s ∈ samples := by
  cases hlast : samples.getLast? with
  | none =>
      rw [List.getLast?_eq_none_iff.mp hlast] at h
      exact absurd h (List.not_mem_nil)
  | some last =>
      rw [foldl_push increasing hlast] at h
      exact List.mem_of_mem_filter h

include upToNow

/-- The ten minutes are all in the hour that is kept. -/
theorem window_eq :
    ((samples.foldl History.push []).filter fun s => decide (now - rateWindowSecs ≤ s.ts)) =
      samples.filter fun s => decide (now - rateWindowSecs ≤ s.ts ∧ s.ts ≤ now) := by
  cases hlast : samples.getLast? with
  | none =>
      rw [List.getLast?_eq_none_iff.mp hlast]
      rfl
  | some last =>
      have hnow := upToNow last (List.mem_of_getLast? hlast)
      rw [foldl_push increasing hlast, List.filter_filter]
      apply List.filter_congr
      intro s hs
      have hs := upToNow s hs
      rw [← Bool.decide_and, decide_eq_decide]
      unfold rateWindowSecs historySecs seriesStepSecs
      omega

/-- The totals that the window has read are those of its samples with metrics. -/
theorem map_readings :
    (readings pick now samples).map Prod.snd =
      (((samples.foldl History.push []).filter fun s =>
        decide (now - rateWindowSecs ≤ s.ts)).filterMap Sample.metrics).map pick := by
  rw [window_eq increasing upToNow, readings, List.map_filterMap, List.map_filterMap]
  apply List.filterMap_congr
  intro s _
  cases s.metrics <;> rfl

/-- The first totals are those of the first reading. -/
theorem oldTotals_eq :
    (((samples.foldl History.push []).filter fun s =>
        decide (now - rateWindowSecs ≤ s.ts)).findSome? Sample.metrics).map pick =
      (readings pick now samples).head?.map Prod.snd := by
  rw [← List.head?_filterMap, ← List.head?_map, ← List.head?_map,
    map_readings increasing upToNow]

/-- Where the window has a reading, the last totals kept are those of its last one. -/
theorem lastTotals_eq (seen : readings pick now samples ≠ []) :
    ((samples.foldl History.push []).reverse.findSome? Sample.metrics).map pick =
      (readings pick now samples).getLast?.map Prod.snd := by
  have totals : (readings pick now samples).map Prod.snd = _ := map_readings increasing upToNow
  rw [← List.head?_filterMap, List.filterMap_reverse, List.head?_reverse, ← List.getLast?_map,
    ← List.getLast?_map, (increasing_history increasing).split (now - rateWindowSecs),
    List.filterMap_append, List.map_append, ← totals]
  apply List.getLast?_append_of_ne_nil
  simpa using seen

theorem windowedAvgMs_of_readings (run : ℤ → ℕ) {first : Reading} {rest : List Reading}
    (seen : readings pick now samples = first :: rest) :
    (samples.foldl History.push []).windowedAvgMs now pick =
      let counted := growth run (first :: rest) - leftOut run first rest
      if 0 < counted.2 then some (counted.1 / counted.2 * 1000) else none := by
  have hold : _ = (readings pick now samples).head?.map Prod.snd :=
    oldTotals_eq increasing upToNow
  have hcur : _ = (readings pick now samples).getLast?.map Prod.snd :=
    lastTotals_eq increasing upToNow (by simp [seen])
  rw [seen, List.head?_cons, Option.map_some] at hold
  rw [seen, List.getLast?_eq_some_getLast (List.cons_ne_nil _ _), Option.map_some] at hcur
  unfold History.windowedAvgMs
  rw [hcur, hold, Option.getD_some, growth_eq, leftOut]
  by_cases rose : first.2 ≤ ((first :: rest).getLast (List.cons_ne_nil _ _)).2
  · have both := And.symm (Prod.le_def.mp rose)
    simp only [if_pos rose, if_pos both, add_sub_cancel_right]
    rfl
  · have notBoth := fun both => rose (Prod.le_def.mpr (And.symm both))
    have whole (last ended : ℚ × ℚ) : last - first.2 + ended - (ended - first.2) = last := by abel
    simp only [if_neg rose, if_neg notBoth, whole]

/-- Without a reading in the window it is with zero that the last totals kept are compared. -/
theorem windowedAvgMs_of_none (unseen : readings pick now samples = [])
    (engine : EngineRuns run pick samples) :
    (samples.foldl History.push []).windowedAvgMs now pick = none ↔
      ∀ m, (samples.foldl History.push []).reverse.findSome? Sample.metrics = some m →
        (pick m).2 = 0 := by
  have hold : _ = (readings pick now samples).head?.map Prod.snd :=
    oldTotals_eq increasing upToNow
  rw [unseen, List.head?_nil, Option.map_none] at hold
  unfold History.windowedAvgMs
  rw [hold, Option.getD_none]
  cases hcur : (samples.foldl History.push []).reverse.findSome? Sample.metrics with
  | none => simp
  | some m =>
      obtain ⟨s, hs, hm⟩ := List.exists_of_findSome?_eq_some hcur
      have hpos := engine.nonneg s
        (mem_of_mem_history increasing (List.mem_reverse.mp hs)) m hm
      have hsum := (Prod.le_def.mp hpos).1
      have hcount := (Prod.le_def.mp hpos).2
      simp only [Prod.fst_zero, Prod.snd_zero] at hsum hcount
      have isZero : ¬ 0 < (pick m).2 ↔ (pick m).2 = 0 := by
        rw [not_lt]
        exact ⟨fun h => le_antisymm h hcount, le_of_eq⟩
      simp [hsum, hcount, ← isZero]

end Window

/-! ## When the average is that of the window -/

/-- What is left of a whole has the same average where the part taken away has it. -/
theorem average_eq_iff {whole part : ℚ × ℚ} (hpart : 0 ≤ part.2) :
    (if 0 < (whole - part).2 then some ((whole - part).1 / (whole - part).2 * 1000) else none) =
        averageMs whole ↔
      whole.2 = 0 ∨ (part.2 < whole.2 ∧ part.1 * whole.2 = whole.1 * part.2) := by
  unfold averageMs
  rw [Prod.fst_sub, Prod.snd_sub]
  by_cases hwhole : whole.2 = 0
  · simp [hwhole, hpart]
  · rw [if_neg hwhole]
    by_cases hless : part.2 < whole.2
    · have hleft : 0 < whole.2 - part.2 := sub_pos.mpr hless
      rw [if_pos hleft, Option.some.injEq, mul_comm, mul_right_inj' (by norm_num),
        div_eq_div_iff hleft.ne' hwhole]
      simp only [hwhole, hless, true_and, false_or]
      constructor <;> intro h <;> linarith
    · have hnone : ¬ 0 < whole.2 - part.2 := by linarith
      simp [hwhole, hless, hnone]

theorem runs_readings {now : ℤ} {samples : List Sample} (increasing : Increasing samples)
    (engine : EngineRuns run pick samples) : Runs run (readings pick now samples) := by
  have read {s : Sample} {r : Reading} (h : (s.metrics.map fun m => (s.ts, pick m)) = some r) :
      ∃ m, s.metrics = some m ∧ (s.ts, pick m) = r := Option.map_eq_some_iff.mp h
  constructor
  · intro r hr
    obtain ⟨s, hs, hsr⟩ := List.mem_filterMap.mp hr
    obtain ⟨m, hm, rfl⟩ := read hsr
    exact engine.nonneg s (List.mem_of_mem_filter hs) m hm
  · rw [readings, List.pairwise_filterMap]
    apply List.Pairwise.imp_of_mem _ (increasing.filter _)
    intro s t hs ht hlt r hsr r' htr same
    obtain ⟨m, hm, rfl⟩ := read hsr
    obtain ⟨n, hn, rfl⟩ := read htr
    exact engine.grows s (List.mem_of_mem_filter hs) t (List.mem_of_mem_filter ht) (le_of_lt hlt)
      same m hm n hn

/-- What the comparison counts is not negative. -/
theorem leftOut_le {first : Reading} {rest : List Reading} (h : Runs run (first :: rest)) :
    (leftOut run first rest).2 ≤ (growth run (first :: rest)).2 := by
  have hlast : 0 ≤ ((first :: rest).getLast (List.cons_ne_nil _ _)).2 :=
    h.nonneg _ (List.getLast_mem _)
  have hgrowth : (growth run (first :: rest)).2 = _ := congrArg Prod.snd (growth_eq first rest)
  rw [hgrowth, leftOut]
  split
  case isTrue rose =>
    have hrose := (Prod.le_def.mp rose).2
    simp only [Prod.snd_add, Prod.snd_sub]
    linarith
  case isFalse fell =>
    have hpos := (Prod.le_def.mp hlast).2
    simp only [Prod.snd_add, Prod.snd_sub, Prod.snd_zero] at hpos ⊢
    linarith

/-- Whatever runs the engine has had, the average shown is that of the last ten minutes exactly
where what the comparison leaves out has the average of the whole. -/
theorem windowedAvgMs_eq_iff (run : ℤ → ℕ) (pick : ServeMetrics → ℚ × ℚ) (now : ℤ)
    (samples : List Sample) (increasing : Increasing samples)
    (upToNow : ∀ s ∈ samples, s.ts ≤ now) (engine : EngineRuns run pick samples) :
    (samples.foldl History.push []).windowedAvgMs now pick =
        averageMs (growth run (readings pick now samples)) ↔
      KeepsAverage run pick now samples := by
  unfold KeepsAverage
  have runs : Runs run (readings pick now samples) := runs_readings increasing engine
  cases seen : readings pick now samples with
  | nil => exact windowedAvgMs_of_none increasing upToNow seen engine
  | cons first rest =>
      rw [seen] at runs
      rw [windowedAvgMs_of_readings increasing upToNow run seen]
      exact average_eq_iff (Prod.le_def.mp (leftOut_nonneg runs)).2

/-- As long as the engine is not started again in the window, the average is that of the window. -/
theorem keepsAverage_of_one_run {now : ℤ} {samples : List Sample}
    (seen : readings pick now samples ≠ [])
    (one : ∀ r ∈ readings pick now samples, ∀ s ∈ readings pick now samples, run r.1 = run s.1)
    (runs : Runs run (readings pick now samples)) : KeepsAverage run pick now samples := by
  unfold KeepsAverage
  cases h : readings pick now samples with
  | nil => exact absurd h seen
  | cons first rest =>
      rw [h] at one runs
      have noneEnded : ended run (first :: rest) = 0 := by
        apply List.sum_eq_zero
        intro q hq
        obtain ⟨p, hp, rfl⟩ := List.mem_map.mp hq
        obtain ⟨hfst, hsnd⟩ := mem_of_mem_steps hp
        exact if_pos (one p.1 hfst p.2 hsnd)
      have rose : first.2 ≤ ((first :: rest).getLast (List.cons_ne_nil _ _)).2 := by
        rcases first_le first rest runs with rose | small
        · exact rose
        · rw [noneEnded] at small
          exact le_trans small (runs.nonneg _ (List.getLast_mem _))
      have nothing : leftOut run first rest = 0 := by
        rw [leftOut, if_pos rose, noneEnded]
      have counted := leftOut_le runs
      rw [nothing] at counted
      simp only [nothing]
      rcases eq_or_lt_of_le counted with hzero | hpos
      · exact Or.inl hzero.symm
      · exact Or.inr ⟨hpos, by simp⟩

/-- A sample with a sum and a count, or one whose scrape failed. -/
def scraped (ts : ℤ) (totals : Option (ℚ × ℚ)) : Sample :=
  { ts := ts, metrics := totals.map fun t => { ttftSum := t.1, ttftCount := t.2 } }

/-- SOURCE: lss-core/src/history.rs:513 -/
def ttft (m : ServeMetrics) : ℚ × ℚ := (m.ttftSum, m.ttftCount)

/-- An engine that is started again after its second scrape. -/
def restarted : List Sample :=
  [scraped 0 (some (10, 5)), scraped 60 (some (20, 10)), scraped 120 none,
    scraped 180 (some (3, 1))]

def afterRestart (t : ℤ) : ℕ := if t < 120 then 0 else 1

theorem engineRuns_restarted : EngineRuns afterRestart ttft restarted := by
  constructor
  · simp [restarted, scraped, ttft, Prod.le_def]
  · simp [restarted, scraped, ttft, Prod.le_def, afterRestart]
    norm_num

theorem windowedAvgMs_eq_iff_restarted :
    (restarted.foldl History.push []).windowedAvgMs 200 ttft =
        averageMs (growth afterRestart (readings ttft 200 restarted)) ↔
      KeepsAverage afterRestart ttft 200 restarted :=
  windowedAvgMs_eq_iff afterRestart ttft 200 restarted (by decide) (by decide) engineRuns_restarted

/-- An engine that answered once and has been down since. -/
def down : List Sample := [scraped 0 (some (10, 5)), scraped 700 none]

theorem engineRuns_down : EngineRuns (fun _ => 0) ttft down := by
  constructor
  · simp [down, scraped, ttft, Prod.le_def]
  · simp [down, scraped, ttft, Prod.le_def]

/-- Where the window has no metrics an average is shown all the same. -/
theorem down_shows_average :
    ¬ ∀ (run : ℤ → ℕ) (pick : ServeMetrics → ℚ × ℚ) (now : ℤ) (samples : List Sample),
      Monotone run → Increasing samples → (∀ s ∈ samples, s.ts ≤ now) →
      EngineRuns run pick samples →
      (samples.foldl History.push []).windowedAvgMs now pick =
        averageMs (growth run (readings pick now samples)) := by
  intro claim
  have shown := claim (fun _ => 0) ttft 700 down monotone_const (by decide) (by decide)
    engineRuns_down
  have lifetime : (down.foldl History.push []).windowedAvgMs 700 ttft = some 2000 := by
    decide +kernel
  have unseen : readings ttft 700 down = [] := by decide +kernel
  rw [lifetime, unseen] at shown
  exact absurd shown (by decide +kernel)

end Lss.Analysis.AverageWindows
