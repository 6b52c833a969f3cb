import Lss.Model.Sample

/-!
# The token ledger

Totals that survive restarts of the engine. The engine's counters start again from zero
whenever it restarts, so the collector keeps a running total of its own for each of them, fed
by their growth, together with the peaks of the token rate.
-/

set_option autoImplicit false

namespace Lss.Model

/-- A total that only grows, built from a counter that can reset.
SOURCE: lss-core/src/tokens.rs:11-17 -/
structure CounterTotal where
  total : ℚ := 0
  /-- the counter at the last observation -/
  last : Option ℚ := none

/-- What an observation of `value` adds.
SOURCE: lss-core/src/tokens.rs:26-34 -/
def CounterTotal.added (t : CounterTotal) (value : ℚ) (reset : Bool) : ℚ :=
  match t.last with
  | none => 0
  | some last => if reset = true ∨ value < last then value else value - last

/-- SOURCE: lss-core/src/tokens.rs:26-38 -/
def CounterTotal.observe (t : CounterTotal) (value : ℚ) (reset : Bool) : CounterTotal :=
  if value < 0 then t else ⟨t.total + t.added value reset, some value⟩

/-- SOURCE: lss-core/src/tokens.rs:41-45 -/
structure Peak where
  tokS : ℚ := 0
  ts : ℤ := 0

/-- Days of peaks kept.
SOURCE: lss-core/src/tokens.rs:48 -/
def peakDays : ℕ := 60

/-- The persistent token ledger.
SOURCE: lss-core/src/tokens.rs:51-66 -/
structure AllTime where
  since : ℤ := 0
  generated : CounterTotal := {}
  prompt : CounterTotal := {}
  cached : CounterTotal := {}
  requests : CounterTotal := {}
  /-- the engine's start time the counters were last read under -/
  epoch : ℤ := 0
  peak : Peak := {}
  /-- the peak of each local day -/
  dayPeaks : Std.ExtTreeMap String Peak := ∅

/-- Drops the oldest days until there are no more than are kept.
SOURCE: lss-core/src/tokens.rs:92-95 -/
def pruneDays : ℕ → Std.ExtTreeMap String Peak → Std.ExtTreeMap String Peak
  | 0, peaks => peaks
  | n + 1, peaks =>
    if peakDays < peaks.size then
      match peaks.minKey? with
      | none => peaks
      | some oldest => pruneDays n (peaks.erase oldest)
    else peaks

/-- The peaks after a token rate.
SOURCE: lss-core/src/tokens.rs:82-96 -/
def AllTime.observePeak (a : AllTime) (ts : ℤ) (day : String) (tokS : ℚ) : AllTime :=
  if 0 < tokS then
    let d := a.dayPeaks.getD day {}
    let d := if d.tokS < tokS then ⟨tokS, ts⟩ else d
    let peaks := a.dayPeaks.insert day d
    { a with
      peak := if a.peak.tokS < tokS then ⟨tokS, ts⟩ else a.peak
      dayPeaks := pruneDays peaks.size peaks }
  else a

/-- Whether an epoch says that the engine restarted; 0 is an epoch that is not known.
SOURCE: lss-core/src/tokens.rs:76 -/
def AllTime.reset (a : AllTime) (epoch : ℤ) : Bool :=
  epoch ≠ 0 ∧ a.epoch ≠ 0 ∧ epoch ≠ a.epoch

/-- One sample of the engine's counters.
SOURCE: lss-core/src/tokens.rs:72-97 -/
def AllTime.observe (a : AllTime) (ts : ℤ) (day : String) (epoch : ℤ) (m : ServeMetrics) :
    AllTime :=
  let reset := a.reset epoch
  AllTime.observePeak
    { a with
      since := if a.since = 0 then ts else a.since
      epoch := if epoch ≠ 0 then epoch else a.epoch
      generated := a.generated.observe m.generationTokensTotal reset
      prompt := a.prompt.observe m.promptTokensTotal reset
      cached := a.cached.observe m.cachedTokensTotal reset
      requests := a.requests.observe m.requestsTotal reset }
    ts day m.genThroughput

/-! ## The four counters of the ledger -/

/-- The counters the ledger keeps a total of. -/
inductive TokenCounter where
  | generated
  | prompt
  | cached
  | requests
deriving DecidableEq

/-- The total of a counter. -/
def AllTime.counter (a : AllTime) : TokenCounter → CounterTotal
  | .generated => a.generated
  | .prompt => a.prompt
  | .cached => a.cached
  | .requests => a.requests

/-- A counter in a sample of the engine's metrics. -/
def ServeMetrics.counter (m : ServeMetrics) : TokenCounter → ℚ
  | .generated => m.generationTokensTotal
  | .prompt => m.promptTokensTotal
  | .cached => m.cachedTokensTotal
  | .requests => m.requestsTotal

@[simp] theorem AllTime.counter_observePeak (a : AllTime) (ts : ℤ) (day : String) (tokS : ℚ)
    (c : TokenCounter) : (a.observePeak ts day tokS).counter c = a.counter c := by
  unfold AllTime.observePeak
  split <;> cases c <;> rfl

@[simp] theorem AllTime.epoch_observePeak (a : AllTime) (ts : ℤ) (day : String) (tokS : ℚ) :
    (a.observePeak ts day tokS).epoch = a.epoch := by
  unfold AllTime.observePeak
  split <;> rfl

/-- Every counter is observed in the same way. -/
theorem AllTime.counter_observe (a : AllTime) (ts : ℤ) (day : String) (epoch : ℤ)
    (m : ServeMetrics) (c : TokenCounter) :
    (a.observe ts day epoch m).counter c = (a.counter c).observe (m.counter c) (a.reset epoch) := by
  unfold AllTime.observe
  rw [AllTime.counter_observePeak]
  cases c <;> rfl

theorem AllTime.epoch_observe (a : AllTime) (ts : ℤ) (day : String) (epoch : ℤ)
    (m : ServeMetrics) :
    (a.observe ts day epoch m).epoch = if epoch ≠ 0 then epoch else a.epoch := by
  unfold AllTime.observe
  rw [AllTime.epoch_observePeak]

end Lss.Model
