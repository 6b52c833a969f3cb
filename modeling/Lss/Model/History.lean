import Mathlib.Data.List.Induction
import Lss.Model.Hist

/-!
# The hour of samples kept in memory

The collector keeps a little more than the last hour of samples, refills it from the database
when it starts, and reads the growth of the engine's counters off it.
-/

set_option autoImplicit false

namespace Lss.Model

/-- SOURCE: lss-core/src/history.rs:11 -/
def historySecs : ℤ := 3600

@[inherit_doc historySecs] def seriesStepSecs : ℤ := 30

/-- SOURCE: lss-core/src/history.rs:14 -/
def rateWindowSecs : ℤ := 600

/-- The samples kept, oldest first.
SOURCE: lss-core/src/history.rs:31-34 -/
abbrev History := List Sample

/-- Takes one more sample and drops those too old from the front.
SOURCE: lss-core/src/history.rs:37-43 -/
def History.push (h : History) (s : Sample) : History :=
  (h ++ [s]).dropWhile fun f => f.ts < s.ts - historySecs - seriesStepSecs

/-- One step of a counter's window: the total so far and whether there was a step, with the
metrics of the sample before.
SOURCE: lss-core/src/history.rs:143-154 -/
def counterStep (pick : ServeMetrics → ℚ) (acc : Option ℚ × Option ServeMetrics) (s : Sample) :
    Option ℚ × Option ServeMetrics :=
  match s.metrics with
  | none => (acc.1, none)
  | some m =>
    match acc.2 with
    | none => (acc.1, some m)
    | some pm =>
      if m.comparable pm ∧ pick pm ≤ pick m then
        (some (acc.1.getD 0 + (pick m - pick pm)), some m)
      else (acc.1, some m)

/-- What a counter grew by over some samples, when there was a step to read it from.
SOURCE: lss-core/src/history.rs:139-156 -/
def counterGrowth (pick : ServeMetrics → ℚ) (samples : List Sample) : Option ℚ :=
  (samples.foldl (counterStep pick) (none, none)).1

/-- SOURCE: lss-core/src/history.rs:139-156 -/
def History.counterWindow (h : History) (now spanSecs : ℤ) (pick : ServeMetrics → ℚ) : Option ℚ :=
  counterGrowth pick (h.filter fun s => now - spanSecs ≤ s.ts)

/-- The average of a histogram over the rate window, in milliseconds: `pick` takes its sum and its
count out of the metrics.

SOURCE: lss-core/src/history.rs:92-105 -/
def History.windowedAvgMs (h : History) (now : ℤ) (pick : ServeMetrics → ℚ × ℚ) : Option ℚ :=
  match (h.reverse.findSome? Sample.metrics).map pick with
  | none => none
  | some cur =>
    let old := (((h.filter fun s => now - rateWindowSecs ≤ s.ts).findSome?
      Sample.metrics).map pick).getD (0, 0)
    -- counters restart from zero with the engine: then the current totals are the window
    let d := if old.2 ≤ cur.2 ∧ old.1 ≤ cur.1 then (cur.1 - old.1, cur.2 - old.2) else cur
    if 0 < d.2 then some (d.1 / d.2 * 1000) else none

/-- The stored samples from a time on.
SOURCE: lss-collector/src/db.rs:173-177 -/
def samplesSince (stored : List Sample) (ts : ℤ) : List Sample := stored.filter fun s => ts ≤ s.ts

/-- The hour of samples a collector starts with.
SOURCE: lss-collector/src/main.rs:383-389 -/
def historyAtStart (stored : List Sample) (startedAt : ℤ) : History :=
  (samplesSince stored (startedAt - historySecs)).foldl History.push []

/-! ## What is kept -/

/-- Samples in order of time, no two at one. -/
def Increasing (samples : List Sample) : Prop := samples.Pairwise fun s t => s.ts < t.ts

instance (samples : List Sample) : Decidable (Increasing samples) :=
  inferInstanceAs (Decidable (samples.Pairwise _))

theorem Increasing.of_append {xs ys : List Sample} (h : Increasing (xs ++ ys)) :
    Increasing xs ∧ Increasing ys ∧ ∀ x ∈ xs, ∀ y ∈ ys, x.ts < y.ts :=
  List.pairwise_append.1 h

/-- Dropping the old samples from the front of a list in order of time keeps the others. -/
theorem dropWhile_old {samples : List Sample} (h : Increasing samples) (cutoff : ℤ) :
    samples.dropWhile (fun s => decide (s.ts < cutoff)) =
      samples.filter fun s => decide (cutoff ≤ s.ts) := by
  induction samples with
  | nil => rfl
  | cons s samples ih =>
      unfold Increasing at h
      rw [List.pairwise_cons] at h
      by_cases hs : s.ts < cutoff
      · rw [List.dropWhile_cons_of_pos (by simpa using hs), List.filter_cons_of_neg (by simpa using hs),
          ih h.2]
      · rw [List.dropWhile_cons_of_neg (by simpa using hs), List.filter_eq_self.2]
        intro x hx
        rcases List.mem_cons.1 hx with rfl | hx
        · simpa using hs
        · have hlt := h.1 x hx
          simp only [decide_eq_true_eq]
          omega

/-- Samples in order of time are those before a time and those from it on. -/
theorem Increasing.split {stored : List Sample} (increasing : Increasing stored) (t : ℤ) :
    stored = stored.filter (fun s => s.ts < t) ++ stored.filter (fun s => t ≤ s.ts) := by
  induction stored with
  | nil => rfl
  | cons s stored ih =>
      unfold Increasing at increasing
      rw [List.pairwise_cons] at increasing
      by_cases hs : s.ts < t
      · rw [List.filter_cons_of_pos (by simpa using hs),
          List.filter_cons_of_neg (by simpa using hs), List.cons_append, ← ih increasing.2]
      · have hrest : stored.filter (fun s => decide (s.ts < t)) = [] := by
          rw [List.filter_eq_nil_iff]
          intro x hx
          have hlt := increasing.1 x hx
          simp only [decide_eq_true_eq]
          omega
        have hall : stored.filter (fun s => decide (t ≤ s.ts)) = stored := by
          rw [List.filter_eq_self]
          intro x hx
          have hlt := increasing.1 x hx
          simp only [decide_eq_true_eq]
          omega
        rw [List.filter_cons_of_neg (by simpa using hs), hrest,
          List.filter_cons_of_pos (by simpa using hs), hall]
        rfl

theorem push_eq {h : History} {s : Sample} (ordered : Increasing (h ++ [s])) :
    h.push s =
      (h ++ [s]).filter fun x => decide (s.ts - historySecs - seriesStepSecs ≤ x.ts) :=
  dropWhile_old ordered _

/-- After samples in order of time, the history is those of the last hour and half a minute. -/
theorem foldl_push {samples : List Sample} (h : Increasing samples) {last : Sample}
    (hlast : samples.getLast? = some last) :
    samples.foldl History.push [] =
      samples.filter fun s => decide (last.ts - historySecs - seriesStepSecs ≤ s.ts) := by
  induction samples using List.reverseRecOn generalizing last with
  | nil => simp at hlast
  | append_singleton samples s ih =>
      obtain ⟨hbefore, -, hlater⟩ := h.of_append
      rw [List.getLast?_concat, Option.some.injEq] at hlast
      subst hlast
      rw [List.foldl_append, List.foldl_cons, List.foldl_nil]
      cases hprev : samples.getLast? with
      | none =>
          rw [List.getLast?_eq_none_iff.1 hprev]
          exact push_eq (List.pairwise_singleton _ _)
      | some last =>
          have hlt := hlater last (List.mem_of_getLast? hprev) s (by simp)
          have hkept := ih hbefore hprev
          have hordered : Increasing (samples.foldl History.push [] ++ [s]) := by
            rw [hkept]
            unfold Increasing
            rw [List.pairwise_append]
            refine ⟨hbefore.filter _, List.pairwise_singleton _ _, ?_⟩
            intro x hx y hy
            exact hlater x (List.mem_filter.1 hx).1 y hy
          rw [push_eq hordered, List.filter_append, List.filter_append, hkept,
            List.filter_filter]
          congr 1
          apply List.filter_congr
          intro x _
          rw [Bool.and_eq_left_iff_imp]
          simp only [decide_eq_true_eq]
          omega

/-! ## The hour on screen -/

namespace HourSeries

/-- SOURCE: lss-core/src/history.rs:13 -/
def seriesPoints : ℕ := 120

/-- What is summed up over half a minute.
SOURCE: lss-core/src/history.rs:310-315 -/
structure Bucket where
  sum : ℚ := 0
  max : ℚ := 0
  n : ℕ := 0

namespace Bucket

/-- SOURCE: lss-core/src/history.rs:318-325 -/
def add (b : Bucket) (v : ℚ) : Bucket :=
  { sum := b.sum + v
    max := if b.n = 0 then v else Max.max b.max v
    n := b.n + 1 }

/-- SOURCE: lss-core/src/history.rs:326-328 -/
def mean (b : Bucket) : Option ℚ := if 0 < b.n then some (round3 (b.sum / b.n)) else none

/-- SOURCE: lss-core/src/history.rs:329-331 -/
def top (b : Bucket) : Option ℚ := if 0 < b.n then some (round3 b.max) else none

/-- Adds a value where there is one. -/
def addSome (b : Bucket) (v : Option ℚ) : Bucket := v.elim b b.add

end Bucket

/-- What one half minute shows of the samples in it by themselves.
SOURCE: lss-core/src/history.rs:202-222 -/
structure Levels where
  decode : Bucket := {}
  running : Bucket := {}
  queuePublic : Bucket := {}
  queueTrusted : Bucket := {}
  budgetUsed : Bucket := {}
  waitersPublic : Bucket := {}
  waitersTrusted : Bucket := {}
  kv : Bucket := {}
  /-- a row for each GPU -/
  temps : ℕ → Bucket := fun _ => {}
  spec : Bucket := {}
  refused : Option ℚ := none
  power : Bucket := {}

/-- What arrived in one half minute: the growth since the sample before each.
SOURCE: lss-core/src/history.rs:214-218 -/
structure Arrivals where
  read : Option ℚ := none
  /-- prompt tokens, and how many of them were cached -/
  hit : Option (ℚ × ℚ) := none

structure Slot where
  levels : Levels := {}
  arrivals : Arrivals := {}

/-- Does the engine say a field?
SOURCE: lss-core/src/history.rs:235 -/
def reports (s : Sample) (key : String) : Bool := !s.notReported.contains key

/-- The refusals of a lane.
SOURCE: lss-core/src/history.rs:277 -/
def refusals (l : LaneLog) : ℕ := (l.byStatus[413]?).getD 0 + (l.byStatus[429]?).getD 0

/-- The power of all cards, when one of them says it.
SOURCE: lss-core/src/history.rs:270-273 -/
def watts (s : Sample) : Option ℚ :=
  let reported := s.gpus.filterMap GpuSample.powerW
  if reported = [] then none else some reported.sum

/-- The share of the trusted lane's budget that is in use.
SOURCE: lss-core/src/history.rs:258-260 -/
def budgetUsed (g : GateHealth) : Option ℚ :=
  (g.trustedLane.budgetTokens.filter fun cap => 0 < cap).map fun cap =>
    (g.trustedLane.inflightTokens : ℚ) / cap

/-- The readings of the cards that have a row.
SOURCE: lss-core/src/history.rs:264-268 -/
def warm (gpuCount : ℕ) (temps : ℕ → Bucket) (gpus : List GpuSample) : ℕ → Bucket :=
  gpus.foldl (fun temps g =>
    if g.index < gpuCount then
      g.tempC.elim temps fun t => Function.update temps g.index ((temps g.index).add t)
    else temps) temps

/-- SOURCE: lss-core/src/history.rs:244-280 -/
def Levels.add (gpuCount : ℕ) (l : Levels) (s : Sample) : Levels :=
  { decode := l.decode.addSome (s.metrics.map ServeMetrics.genThroughput)
    running := l.running.addSome (s.metrics.map ServeMetrics.running)
    queuePublic := l.queuePublic.addSome (s.metrics.map ServeMetrics.queuePublic)
    queueTrusted := l.queueTrusted.addSome (s.metrics.map ServeMetrics.queueTrusted)
    budgetUsed := l.budgetUsed.addSome (s.gate.bind HourSeries.budgetUsed)
    waitersPublic := l.waitersPublic.addSome (s.gate.map fun g => (g.publicLane.waiters : ℚ))
    waitersTrusted := l.waitersTrusted.addSome (s.gate.map fun g => (g.trustedLane.waiters : ℚ))
    kv := l.kv.addSome (s.metrics.map ServeMetrics.kvUsage)
    temps := warm gpuCount l.temps s.gpus
    spec := l.spec.addSome (if reports s "spec" then s.metrics.map ServeMetrics.specAcceptRate
      else none)
    refused := if s.gate.isSome then
        some (l.refused.getD 0 + (refusals s.log.publicLane + refusals s.log.trustedLane : ℕ))
      else l.refused
    power := l.power.addSome (watts s) }

/-- What grew since the metrics before. An engine that does not say the counters adds nothing to
the share of cached tokens.
SOURCE: lss-core/src/history.rs:230-243 -/
def Arrivals.add (a : Arrivals) (prev : Option ServeMetrics) (s : Sample) : Arrivals :=
  match s.metrics with
  | none => a
  | some m =>
    { read := some (a.read.getD 0 + prev.elim 0 m.computedPromptTokensSince)
      hit :=
        match prev.filter fun pm => m.comparable pm && reports s "tokens" && reports s "cache_hit" with
        | none => a.hit
        | some pm =>
          let prompt := m.promptTokensTotal - pm.promptTokensTotal
          let cached := m.cachedTokensTotal - pm.cachedTokensTotal
          if 0 ≤ prompt ∧ 0 ≤ cached then
            let sums := a.hit.getD (0, 0)
            some (sums.1 + prompt, sums.2 + cached)
          else a.hit }

def Slot.add (gpuCount : ℕ) (x : Slot) (prev : Option ServeMetrics) (s : Sample) : Slot :=
  { levels := x.levels.add gpuCount s
    arrivals := x.arrivals.add prev s }

/-- Where the hour on screen begins.
SOURCE: lss-core/src/history.rs:198-199 -/
def startAt (now : ℤ) : ℤ := now - now % seriesStepSecs + seriesStepSecs - historySecs

/-- The metrics before a sample: out of the hour those of the sample before, in it the last ones
there were.
SOURCE: lss-core/src/history.rs:226-229, 247 -/
def nextPrev (start : ℤ) (prev : Option ServeMetrics) (s : Sample) : Option ServeMetrics :=
  if s.ts < start ∨ start + historySecs ≤ s.ts then s.metrics else s.metrics.or prev

/-- One sample goes into its half minute.
SOURCE: lss-core/src/history.rs:224-280 -/
def fill (gpuCount : ℕ) (start : ℤ) (acc : List Slot × Option ServeMetrics) (s : Sample) :
    List Slot × Option ServeMetrics :=
  (if s.ts < start ∨ start + historySecs ≤ s.ts then acc.1
   else acc.1.modify ((s.ts - start) / seriesStepSecs).toNat fun x => x.add gpuCount acc.2 s,
   nextPrev start acc.2 s)

/-- SOURCE: lss-core/src/history.rs:200 -/
def gpuCount (h : History) : ℕ :=
  (h.map fun s => (s.gpus.map fun g => g.index + 1).foldl max 0).foldl max 0

/-- The half minutes of the hour.
SOURCE: lss-core/src/history.rs:197-280 -/
def slots (h : History) (now : ℤ) : List Slot :=
  (h.foldl (fill (gpuCount h) (startAt now))
    (List.replicate seriesPoints {}, none)).1

/-- The mean power of all cards over each half minute, which a price is made from.
SOURCE: lss-core/src/history.rs:184-195 -/
def powerMeanW (h : History) (now : ℤ) : List (Option ℚ) :=
  let start := startAt now
  ((h.filter fun s => start ≤ s.ts ∧ s.ts < start + historySecs).foldl
    (fun power s => power.modify ((s.ts - start) / seriesStepSecs).toNat
      fun b => b.addSome (watts s))
    (List.replicate seriesPoints ({} : Bucket))).map Bucket.mean

/-- SOURCE: lss-core/src/model.rs:614-664 -/
structure Series where
  stepS : ℤ
  startTs : ℤ
  points : ℕ
  decodeTokS : List (Option ℚ)
  prefillTokS : List (Option ℚ)
  running : List (Option ℚ)
  queuePublic : List (Option ℚ)
  queueTrusted : List (Option ℚ)
  budgetUsedFrac : List (Option ℚ)
  waitersPublic : List (Option ℚ)
  waitersTrusted : List (Option ℚ)
  kvUsage : List (Option ℚ)
  gpuTempC : List (List (Option ℚ))
  ttftP99Ms : List (Option ℚ)
  itlP99Ms : List (Option ℚ)
  prefixHit : List (Option ℚ)
  specAcceptRate : List (Option ℚ)
  refused : List (Option ℚ)
  gpuPowerW : List (Option ℚ)
  usdPerHour : List (Option ℚ)

/-- SOURCE: lss-core/src/history.rs:288 -/
def Arrivals.prefill (a : Arrivals) : Option ℚ :=
  a.read.map fun t => (roundHalfAway (t / seriesStepSecs) : ℚ)

/-- SOURCE: lss-core/src/history.rs:301 -/
def Arrivals.prefixHit (a : Arrivals) : Option ℚ :=
  a.hit.bind fun h => if 0 < h.1 then some (round3 (max 0 (min (h.2 / h.1) 1))) else none

/-- A rate shows the mean of its half minute, a level its highest.
SOURCE: lss-core/src/history.rs:281-306 -/
def series (h : History) (now : ℤ) : Series :=
  let x := slots h now
  { stepS := seriesStepSecs
    startTs := startAt now
    points := seriesPoints
    decodeTokS := x.map fun y => y.levels.decode.mean
    prefillTokS := x.map fun y => y.arrivals.prefill
    running := x.map fun y => y.levels.running.top
    queuePublic := x.map fun y => y.levels.queuePublic.top
    queueTrusted := x.map fun y => y.levels.queueTrusted.top
    budgetUsedFrac := x.map fun y => y.levels.budgetUsed.top
    waitersPublic := x.map fun y => y.levels.waitersPublic.top
    waitersTrusted := x.map fun y => y.levels.waitersTrusted.top
    kvUsage := x.map fun y => y.levels.kv.top
    gpuTempC := (List.range (gpuCount h)).map fun g => x.map fun y => (y.levels.temps g).top
    ttftP99Ms := List.replicate seriesPoints none
    itlP99Ms := List.replicate seriesPoints none
    prefixHit := x.map fun y => y.arrivals.prefixHit
    specAcceptRate := x.map fun y => y.levels.spec.mean
    refused := x.map fun y => y.levels.refused
    gpuPowerW := x.map fun y => y.levels.power.top
    usdPerHour := List.replicate seriesPoints none }

end HourSeries

end Lss.Model
