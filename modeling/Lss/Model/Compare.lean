import Mathlib.Data.String.Basic
import Lss.Model.Saturation

/-!
# Two loadouts side by side

Every measurement two loadouts may share becomes a row: a benchmark's number against the other
side's, or a number of live traffic against the other side's, with the difference and what it
means. Where the two benchmarks ran under different background load the differences of their
numbers are withdrawn. One sentence sums up each category.
-/

set_option autoImplicit false

namespace Lss.Model.Compare

open Lss.Model

/-! ## Scorecards -/

/-- SOURCE: lss-core/src/bench.rs:999-1004 -/
structure PrefillCell where
  tokens : ℕ
  tokS : ℚ

/-- SOURCE: lss-core/src/bench.rs:1016-1024 -/
structure NeedleResult where
  pass : Bool

/-- SOURCE: lss-core/src/bench.rs:1028-1038 -/
structure Accuracy where
  dataset : String
  score : ℚ

/-- What was garbled of what a model wrote.
SOURCE: lss-core/src/bench.rs:946-955 -/
structure Garbled where
  per100k : ℚ

/-- A benchmark run, as far as it is compared.
SOURCE: lss-core/src/bench.rs:1043-1091 -/
structure Scorecard where
  profile : String := ""
  endedAt : ℤ := 0
  background : Option BackgroundLoad := none
  decode : List DecodeCell := []
  prefill : List PrefillCell := []
  needle : List NeedleResult := []
  tokensPerJoule : Option ℚ := none
  whPerMtok : Option ℚ := none
  garbled : Option Garbled := none
  accuracy : List Accuracy := []

/-- The numbers a row of a table shows.
SOURCE: lss-core/src/bench.rs:1160-1170 -/
structure Headline where
  c1TokS : Option ℚ
  ttftC1Ms : Option ℚ
  maxTotalTokS : Option ℚ
  maxTotalAt : Option ℕ
  prefill8kTokS : Option ℚ
  accuracy : Option ℚ
  accuracyDataset : Option String

namespace Scorecard

/-- SOURCE: lss-core/src/bench.rs:1173-1175 -/
def cell (s : Scorecard) (concurrency context : ℕ) : Option DecodeCell :=
  s.decode.find? fun c => c.concurrency = concurrency ∧ c.context = context

/-- The prefill cell next to so many tokens.
SOURCE: lss-core/src/bench.rs:1178-1180 -/
def prefillNear (s : Scorecard) (tokens : ℕ) : Option PrefillCell :=
  s.prefill.find? fun p => ((p.tokens : ℤ) - tokens).natAbs * 20 ≤ tokens

/-- The cell of the highest total speed with empty conversations, the last of equal ones. -/
def best (s : Scorecard) : Option DecodeCell :=
  (s.decode.filter fun c => c.context = 0).foldl
    (fun best c => if best.any (fun b => c.totalTokS < b.totalTokS) then best else some c) none

/-- SOURCE: lss-core/src/bench.rs:1182-1194 -/
def headline (s : Scorecard) : Headline where
  c1TokS := (s.cell 1 0).map DecodeCell.perUserTokS
  ttftC1Ms := (s.cell 1 0).bind DecodeCell.ttftMs
  maxTotalTokS := s.best.map DecodeCell.totalTokS
  maxTotalAt := s.best.map DecodeCell.concurrency
  prefill8kTokS := (s.prefillNear 8192).map PrefillCell.tokS
  accuracy := s.accuracy.head?.map Accuracy.score
  accuracyDataset := s.accuracy.head?.map Accuracy.dataset

end Scorecard

/-! ## Background load -/

/-- SOURCE: lss-core/src/bench.rs:691-694 -/
def sourceText : LoadSource → String
  | .users => "gateway user table"
  | .lanes => "gateway lanes"
  | .engine => "engine total less the bench's own"
  | .unmeasured => "not measured"

/-- SOURCE: lss-core/src/bench.rs:843-849 -/
def classSentence : LoadClass → String
  | .quiet => "measured on a quiet server: nothing else was running"
  | .loaded => "MEASURED UNDER LOAD: other traffic shared the server the whole time"
  | .unknown =>
    "what else the server was doing was NOT recorded: do not read this as quiet"

/-- What was on the server, how it was counted, and out of how many looks.
SOURCE: lss-core/src/bench.rs:870-881 -/
def backgroundSentence (b : BackgroundLoad) : String :=
  let engine := b.engineTokS.elim "" fun t =>
    " · the engine wrote " ++ F64.fixed 0 t ++ " tok/s in all (the bench's own output included)"
  match b.loadClass, b.concurrentAvg, b.concurrentMax with
  | .quiet, _, _ =>
    "quiet: no request but the benchmark's own in any of " ++ toString b.samples ++
      " looks, 2 s apart (" ++ sourceText b.source ++ ")" ++ engine
  | _, some avg, some most =>
    "UNDER LOAD: " ++ F64.fixed 2 avg ++ " other request(s) in flight on average, " ++
      F64.fixed 0 most ++ " at the worst, on " ++ toString b.pollsWithTraffic ++ " of " ++
      toString b.samples ++ " looks (" ++ sourceText b.source ++ ") · engine queue " ++
      F64.fixed 1 b.queueAvg ++ " avg / " ++ F64.fixed 0 b.queueMax ++ " peak" ++ engine
  | _, _, _ =>
    "not recorded: nothing here could tell the benchmark's own requests apart from anyone else's in " ++
      toString b.samples ++ " looks (" ++ sourceText b.source ++ ")" ++ engine

/-- SOURCE: lss-core/src/bench.rs:1233-1235 -/
def Scorecard.loadClass (s : Scorecard) : LoadClass :=
  s.background.elim .unknown BackgroundLoad.loadClass

/-- SOURCE: lss-core/src/bench.rs:1238-1240 -/
def Scorecard.loadSentence (s : Scorecard) : String :=
  s.background.elim (classSentence .unknown) backgroundSentence

/-- The share of the engine one request has beside so many others.
SOURCE: lss-core/src/bench.rs:885-887 -/
def engineShare (foreign : ℚ) : ℚ := 1 / (1 + max foreign 0)

/-- The band a difference has to clear, with the allowance for rounding.
SOURCE: lss-core/src/bench.rs:919; lss-core/src/compare.rs:236 -/
def noiseBand : ℚ := noise + 1 / 10 ^ 12

/-- SOURCE: lss-core/src/bench.rs:904 -/
def unrecorded (s : Scorecard) (which : String) : String :=
  "the " ++ which ++ " run did not record what else the server was doing while it ran, so a " ++
    "difference in the numbers cannot be told apart from a difference in the traffic (" ++
    classSentence s.loadClass ++ ")"

/-- Why two scorecards must not be compared.
SOURCE: lss-core/src/bench.rs:903-926 -/
def loadGap (a b : Scorecard) : Option String :=
  if a.loadClass = .unknown then some (unrecorded a "first")
  else if b.loadClass = .unknown then some (unrecorded b "second")
  else
    match a.background, b.background with
    | some ba, some bb =>
      match ba.concurrentAvg, bb.concurrentAvg with
      | some na, some nb =>
        let sa := engineShare na
        let sb := engineShare nb
        let gap := |sa - sb| / max sa sb
        if noiseBand < gap then
          some ("measured under different background load: " ++ F64.fixed 2 na ++
            " other request(s) in flight against " ++ F64.fixed 2 nb ++
            ", so one run had about " ++ F64.fixed 0 (gap * 100) ++
            "% more of the engine to itself than the other - past the +-" ++
            F64.fixed 0 (noise * 100) ++
            "% band a difference has to clear to count at all. The gap in the numbers is at least as likely to be the traffic as the loadout")
        else none
      | _, _ => some (unrecorded a "first")
    | _, _ => some (unrecorded a "first")

/-! ## Loadouts -/

/-- What live traffic showed of a loadout, as far as it is compared.
SOURCE: lss-core/src/loadout.rs:678-765 -/
structure LoadoutRow where
  id : String := ""
  model : String := ""
  imageTag : String := ""
  flags : String := ""
  firstSeen : ℤ := 0
  uptimePct : Option ℚ := none
  c1TokS : Option ℚ := none
  peakTokS : Option ℚ := none
  prefillTokS : Option ℚ := none
  ttftP50Ms : Option ℚ := none
  tokensPerJoule : Option ℚ := none
  whPerMtok : Option ℚ := none
  errorRate : Option ℚ := none
  rate429 : Option ℚ := none
  coldStartAvgS : Option ℚ := none

/-- A loadout with its newest complete runs.
SOURCE: lss-core/src/compare.rs:16-30 -/
structure LoadoutCard where
  row : LoadoutRow := {}
  quick : Option Scorecard := none
  full : Option Scorecard := none
  /-- the newest run of each dataset -/
  accuracy : List Scorecard := []

/-- The scorecard to read speeds off.
SOURCE: lss-core/src/compare.rs:62-64 -/
def LoadoutCard.speed (c : LoadoutCard) : Option Scorecard := c.full.or c.quick

/-! ## Rows -/

/-- SOURCE: lss-core/src/compare.rs:128-142 -/
inductive Mark where
  | same
  | better
  | worse
  /-- a side has no such measurement -/
  | noData
  /-- both have one, under background loads too different to subtract -/
  | incomparable
deriving DecidableEq

/-- SOURCE: lss-core/src/compare.rs:144-152 -/
def categories : List (String × String) :=
  [("speed_alone", "speed alone"), ("speed_under_load", "speed under load"),
    ("reading_speed", "reading speed"), ("long_context", "long context"),
    ("accuracy", "accuracy"), ("efficiency", "efficiency"), ("reliability", "reliability")]

/-- SOURCE: lss-core/src/compare.rs:154-167 -/
structure CompareRow where
  category : String
  label : String
  unit : String
  a : Option ℚ
  b : Option ℚ
  /-- where both numbers come from, empty without a pair -/
  source : String
  higherIsBetter : Bool
  /-- of the first against the second, in percent -/
  deltaPct : Option ℚ
  mark : Mark

/-- The difference of one number against another, and what it means.
SOURCE: lss-core/src/compare.rs:223-247 -/
def judge (a b : Option ℚ) (higherIsBetter : Bool) : Option ℚ × Mark :=
  match a, b with
  | some a, some b =>
    if b = 0 then
      -- there is no percentage of zero, but there is a direction
      if a = 0 then (some 0, .same)
      else (none, if decide (0 < a) = higherIsBetter then .better else .worse)
    else
      let delta := (a - b) / |b|
      let mark :=
        if |delta| ≤ noiseBand then Mark.same
        else if decide (0 < delta) = higherIsBetter then .better
        else .worse
      (some (roundHalfAway (delta * 1000) / 10), mark)
  | _, _ => (none, .noData)

/-- The numbers a metric has on one side: of a benchmark, and of live traffic. -/
structure Picked where
  bench : Option ℚ := none
  live : Option ℚ := none

/-- What is compared in a row. -/
structure Metric where
  category : String
  label : String
  unit : String
  higher : Bool
  a : Picked
  b : Picked

/-- The two numbers that are compared, and their source: the same on both sides, the benchmark
first.
SOURCE: lss-core/src/compare.rs:265-270 -/
def paired (a b : Picked) : Option ℚ × Option ℚ × String :=
  match a.bench, a.live, b.bench, b.live with
  | some x, _, some y, _ => (some x, some y, "bench")
  | _, some x, _, some y => (some x, some y, "live")
  | x, lx, y, ly => (x.or lx, y.or ly, "")

/-- SOURCE: lss-core/src/compare.rs:264-273 -/
def Metric.row (m : Metric) : CompareRow :=
  let pair := paired m.a m.b
  let judged := if pair.2.2 = "" then (none, .noData) else judge pair.1 pair.2.1 m.higher
  { category := m.category
    label := m.label
    unit := m.unit
    a := pair.1
    b := pair.2.1
    source := pair.2.2
    higherIsBetter := m.higher
    deltaPct := judged.1
    mark := judged.2 }

/-- SOURCE: lss-core/src/compare.rs:252-254 -/
def benchCell (c : LoadoutCard) (concurrency context : ℕ) : Option DecodeCell :=
  c.speed.bind fun s => s.cell concurrency context

/-- The numbers of users at once that were measured with empty conversations. -/
def levels (c : LoadoutCard) : List ℕ :=
  c.speed.elim [] fun s => (s.decode.filter fun d => d.context = 0).map DecodeCell.concurrency

/-- SOURCE: lss-core/src/compare.rs:256-260 -/
def topCommonConcurrency (a b : LoadoutCard) : Option ℕ :=
  ((levels a).filter fun n => n ∈ levels b).max?

/-- The datasets either side was measured with, each once, in order.
SOURCE: lss-core/src/compare.rs:305-307 -/
def datasets (a b : LoadoutCard) : List String :=
  (((a.accuracy ++ b.accuracy).flatMap fun s => s.accuracy.map Accuracy.dataset).insertionSort
    (· ≤ ·)).destutter (· ≠ ·)

/-- SOURCE: lss-core/src/compare.rs:309 -/
def score (dataset : String) (c : LoadoutCard) : Picked where
  bench := ((c.accuracy.flatMap Scorecard.accuracy).find? fun x => x.dataset = dataset).map
    fun x => roundHalfAway (x.score * 1000) / 10

/-- SOURCE: lss-core/src/compare.rs:323 -/
def pct100 (v : Option ℚ) : Option ℚ := v.map fun x => roundHalfAway (x * 1000000) / 10000

/-- What a side shows of a metric, the same for both. -/
def metric (a b : LoadoutCard) (category label unit : String) (higher : Bool)
    (pick : LoadoutCard → Picked) : Metric :=
  ⟨category, label, unit, higher, pick a, pick b⟩

/-- Everything two loadouts are compared by.
SOURCE: lss-core/src/compare.rs:274-329 -/
def metrics (a b : LoadoutCard) : List Metric :=
  let metric := metric a b
  [metric "speed_alone" "one user alone" "tok/s" true fun c =>
      ⟨(benchCell c 1 0).map DecodeCell.perUserTokS, c.row.c1TokS⟩,
    metric "speed_alone" "time to first word" "ms" false fun c =>
      ⟨(benchCell c 1 0).bind DecodeCell.ttftMs, c.row.ttftP50Ms⟩,
    metric "speed_under_load" "best total speed" "tok/s" true fun c =>
      ⟨c.speed.bind fun s => s.headline.maxTotalTokS, c.row.peakTokS⟩] ++
  ((topCommonConcurrency a b).elim [] fun n =>
    [metric "speed_under_load" ("each user, " ++ toString n ++ " at once") "tok/s" true fun c =>
        ⟨(benchCell c n 0).map DecodeCell.perUserTokS, none⟩,
      metric "speed_under_load" ("total, " ++ toString n ++ " at once") "tok/s" true fun c =>
        ⟨(benchCell c n 0).map DecodeCell.totalTokS, none⟩]) ++
  [metric "reading_speed" "reading an 8k prompt" "tok/s" true fun c =>
      ⟨c.speed.bind fun s => (s.prefillNear 8192).map PrefillCell.tokS, c.row.prefillTokS⟩,
    metric "reading_speed" "reading a 64k prompt" "tok/s" true fun c =>
      ⟨c.speed.bind fun s => (s.prefillNear 65536).map PrefillCell.tokS, none⟩,
    metric "long_context" "reading a 128k prompt" "tok/s" true fun c =>
      ⟨c.full.bind fun s => (s.prefillNear 131072).map PrefillCell.tokS, none⟩,
    metric "long_context" "one user, 16k already read" "tok/s" true fun c =>
      ⟨(benchCell c 1 16384).map DecodeCell.perUserTokS, none⟩,
    metric "long_context" "one user, 64k already read" "tok/s" true fun c =>
      ⟨c.full.bind fun s => (s.cell 1 65536).map DecodeCell.perUserTokS, none⟩,
    metric "long_context" "one user, 128k already read" "tok/s" true fun c =>
      ⟨c.full.bind fun s => (s.cell 1 131072).map DecodeCell.perUserTokS, none⟩,
    metric "long_context" "needle found (of 3 depths)" "" true fun c =>
      ⟨(c.full.filter fun s => s.needle ≠ []).map fun s =>
        ((s.needle.filter NeedleResult.pass).length : ℚ), none⟩] ++
  ((datasets a b).map fun d => metric "accuracy" d "%" true (score d)) ++
  (if datasets a b = [] then [metric "accuracy" "accuracy" "%" true fun _ => {}] else []) ++
  [metric "efficiency" "tokens per joule" "tok/J" true fun c =>
      ⟨c.full.bind Scorecard.tokensPerJoule, c.row.tokensPerJoule⟩,
    metric "efficiency" "energy per 1M tokens" "Wh" false fun c =>
      ⟨c.full.bind Scorecard.whPerMtok, c.row.whPerMtok⟩,
    metric "reliability" "time up" "%" true fun c => ⟨none, c.row.uptimePct⟩,
    metric "reliability" "requests that failed (5xx)" "%" false fun c =>
      ⟨none, pct100 c.row.errorRate⟩,
    metric "reliability" "requests turned away (429)" "%" false fun c =>
      ⟨none, pct100 c.row.rate429⟩,
    metric "reliability" "cold start" "s" false fun c => ⟨none, c.row.coldStartAvgS⟩,
    metric "reliability" "garbled output per 100k chars" "" false fun c =>
      ⟨c.full.bind fun s => s.garbled.map Garbled.per100k, none⟩]

/-! ## Verdicts -/

/-- The row with the biggest difference of a mark, the earlier one of equal ones.
SOURCE: lss-core/src/compare.rs:350-360 -/
def biggest (rows : List CompareRow) (mark : Mark) : Option CompareRow :=
  (rows.filter fun r => r.mark = mark).foldl
    (fun best r =>
      if best.all fun b => |b.deltaPct.getD 0| < |r.deltaPct.getD 0| then some r else best) none

/-- What a category comes to. -/
inductive Judgement where
  /-- it had a pair and lost it to the background load -/
  | withdrawn
  | unmeasured
  | same
  | better (by_ : CompareRow)
  | worse (by_ : CompareRow)
  | mixed (wins losses : List CompareRow)

/-- SOURCE: lss-core/src/compare.rs:362-405 -/
def judgement (category : String) (rows : List CompareRow) (loadWarning : Option String) :
    Judgement :=
  let of := rows.filter fun r => r.category = category
  let paired := of.filter fun r => ¬(r.mark = .noData ∨ r.mark = .incomparable)
  if paired = [] ∧ loadWarning.isSome ∧ of.any (fun r => r.mark = .incomparable) then .withdrawn
  else
    match paired with
    | [] => .unmeasured
    | lead :: _ =>
      let wins := paired.filter fun r => r.mark = .better
      let losses := paired.filter fun r => r.mark = .worse
      if wins = [] ∧ losses = [] then .same
      else if losses = [] then .better ((biggest paired .better).getD lead)
      else if wins = [] then .worse ((biggest paired .worse).getD lead)
      else .mixed wins losses

/-- How a row's difference is put.
SOURCE: lss-core/src/compare.rs:390-393 -/
def amount (r : CompareRow) : String :=
  r.deltaPct.elim r.label fun d => r.label ++ " " ++ F64.fixed 0 |d| ++ "%"

/-- SOURCE: lss-core/src/compare.rs:373-379 -/
def betterWords (category : String) : String × String :=
  match category with
  | "accuracy" => ("more accurate", "less accurate")
  | "efficiency" => ("more efficient", "less efficient")
  | "reliability" => ("more reliable", "less reliable")
  | "long_context" => ("better", "worse")
  | _ => ("faster", "slower")

/-- The sentence of a judgement.
SOURCE: lss-core/src/compare.rs:362-405 -/
def Judgement.sentence (category a b : String) : Judgement → String
  | .withdrawn =>
    "cannot be compared: the two runs were measured under different background load, so the difference would be the traffic as much as the loadout (the note above says by how much)"
  | .unmeasured =>
    match category with
    | "accuracy" =>
      "not measured on both: run `lss bench accuracy` on each (long: pick a quiet window), then `lss compare " ++
        a ++ " " ++ b ++ " --accuracy`"
    | "long_context" =>
      "not measured on both: `lss bench full` measures 128k prompts and the needle"
    | "reliability" => "not enough real traffic on both sides yet"
    | _ => "no measurement on both sides yet: run `lss bench quick` on each loadout"
  | .same =>
    "~ same: every difference is within the +-" ++ F64.fixed 0 (noise * 100) ++
      "% run-to-run noise"
  | .better r => a ++ " is " ++ (betterWords category).1 ++ " than " ++ b ++ " (" ++ amount r ++ ")"
  | .worse r => a ++ " is " ++ (betterWords category).2 ++ " than " ++ b ++ " (" ++ amount r ++ ")"
  | .mixed wins losses =>
    "mixed: " ++ a ++ " wins on " ++ ", ".intercalate (wins.map amount) ++ "; loses on " ++
      ", ".intercalate (losses.map amount)

/-- SOURCE: lss-core/src/compare.rs:362-405 -/
def verdict (category : String) (rows : List CompareRow) (a b : String)
    (loadWarning : Option String) : String :=
  (judgement category rows loadWarning).sentence category a b

/-! ## The comparison -/

/-- SOURCE: lss-core/src/compare.rs:190-206 -/
structure Side where
  selector : String
  id : String
  model : String
  imageTag : String
  flags : String
  firstSeen : ℤ
  benchProfile : Option String
  benchAt : Option ℤ
  benchLoad : LoadClass
  benchLoadDetail : String

/-- SOURCE: lss-core/src/compare.rs:208-221 -/
def side (selector : String) (c : LoadoutCard) : Side where
  selector := selector
  id := c.row.id
  model := c.row.model
  imageTag := c.row.imageTag
  flags := c.row.flags
  firstSeen := c.row.firstSeen
  benchProfile := c.speed.map Scorecard.profile
  benchAt := c.speed.map Scorecard.endedAt
  benchLoad := c.speed.elim .unknown Scorecard.loadClass
  benchLoadDetail := c.speed.elim "" Scorecard.loadSentence

/-- SOURCE: lss-core/src/compare.rs:169-174 -/
structure Verdict where
  category : String
  title : String
  sentence : String

/-- SOURCE: lss-core/src/compare.rs:176-189 -/
structure Comparison where
  v : ℕ
  a : Side
  b : Side
  noisePct : ℚ
  loadWarning : Option String
  rows : List CompareRow
  verdicts : List Verdict

/-- SOURCE: lss-core/src/compare.rs:335-338 -/
def loadWarning (a b : LoadoutCard) : Option String :=
  match a.speed, b.speed with
  | some sa, some sb => loadGap sa sb
  | _, _ => none

/-- A row whose numbers must not be subtracted.
SOURCE: lss-core/src/compare.rs:339-344 -/
def withdraw (r : CompareRow) : CompareRow :=
  if r.source = "bench" then { r with deltaPct := none, mark := .incomparable } else r

/-- SOURCE: lss-core/src/compare.rs:262-348 -/
def compare (selA : String) (a : LoadoutCard) (selB : String) (b : LoadoutCard) : Comparison :=
  let warning := loadWarning a b
  let rows := (metrics a b).map Metric.row
  let rows := if warning.isSome then rows.map withdraw else rows
  { v := 1
    a := side selA a
    b := side selB b
    noisePct := noise * 100
    loadWarning := warning
    rows := rows
    verdicts := categories.map fun c => ⟨c.1, c.2, verdict c.1 rows selA selB warning⟩ }

end Lss.Model.Compare
