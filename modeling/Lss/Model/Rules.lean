import Lss.Library.Machine
import Lss.Model.Alert

/-!
# The alert rule engine

One evaluation of every rule against one observation. The state of the engine is what the
collector saves between polls. Each group of rules is evaluated by its own function, over
the fields of the engine that the group uses; `evaluate` puts the groups together in the
order of the source and collects their events.
-/

set_option autoImplicit false

namespace Lss.Model

open Lss.Library

/-! ## A sustained rule -/

/-- SOURCE: lss-core/src/rules.rs:176-181 -/
inductive Edge where
  | none
  | fire
  | recover
deriving DecidableEq

/-- The state of a rule whose condition must hold for a while.
SOURCE: lss-core/src/rules.rs:183-189 -/
structure Sustained where
  since : Option ℤ := none
  announced : Bool := false
  lastSent : Option ℤ := none
deriving Inhabited

namespace Sustained

/-- SOURCE: lss-core/src/rules.rs:207-209 -/
def cooled (s : Sustained) (now cooldown : ℤ) : Bool :=
  match s.lastSent with
  | none => true
  | some t => decide (cooldown ≤ now - t)

/-- SOURCE: lss-core/src/rules.rs:211-213 -/
def heldFor (s : Sustained) (now : ℤ) : ℤ :=
  match s.since with
  | none => 0
  | some t => now - t

/-- One judgement of the rule's condition.
SOURCE: lss-core/src/rules.rs:192-205 -/
def step (s : Sustained) (now : ℤ) (cond : Bool) (hold cooldown : ℤ) : Sustained × Edge :=
  if cond then
    let since := s.since.getD now
    if decide (hold ≤ now - since) && !s.announced && s.cooled now cooldown then
      ({ since := some since, announced := true, lastSent := some now }, .fire)
    else ({ s with since := some since }, .none)
  else
    ({ s with since := none, announced := false }, if s.announced then .recover else .none)

end Sustained

/-- The event of an edge, if it has one.
SOURCE: lss-core/src/rules.rs:1642-1656 -/
def pushEdge (e : Edge) (now : ℤ) (rule : RuleKey) (sev : Severity) (fire recover : String) :
    List AlertEvent :=
  match e with
  | .fire => [alert now rule sev false fire]
  | .recover => [alert now rule sev true recover]
  | .none => []

/-! ## Sliding windows -/

/-- The readings of a window after one more: those that are older than the window are
dropped, except the newest of them.
SOURCE: lss-core/src/rules.rs:242-244 -/
def dropOld (now window : ℤ) : List (ℤ × ℕ) → List (ℤ × ℕ)
  | first :: second :: rest =>
    if second.1 ≤ now - window then dropOld now window (second :: rest)
    else first :: second :: rest
  | points => points

/-- A counter watched for growth inside a sliding window.
SOURCE: lss-core/src/rules.rs:216-222 -/
structure GrowthWindow where
  points : List (ℤ × ℕ) := []
  rule : Sustained := {}
deriving Inhabited

/-- The readings and the growth of the counter across the window. A counter that went
backwards starts the window over.
SOURCE: lss-core/src/rules.rs:256-265 -/
def GrowthWindow.push (points : List (ℤ × ℕ)) (now : ℤ) (value : ℕ) (window : ℤ) :
    List (ℤ × ℕ) × ℕ :=
  let kept := if points.getLast?.any (fun p => decide (value < p.2)) then [] else points
  let points := dropOld now window (kept ++ [(now, value)])
  (points, value - (points.head?.map Prod.snd).getD value)

/-- Free space watched for a fast drop inside a sliding window.
SOURCE: lss-core/src/rules.rs:226-232 -/
structure DiskGrowth where
  points : List (ℤ × ℕ) := []
  rule : Sustained := {}
deriving Inhabited

/-- The readings and the biggest drop of the free space across the window.
SOURCE: lss-core/src/rules.rs:235-250 -/
def DiskGrowth.push (points : List (ℤ × ℕ)) (now : ℤ) (avail : ℕ) (window : ℤ) :
    List (ℤ × ℕ) × ℕ :=
  let points := dropOld now window (points ++ [(now, avail)])
  (points, (points.map fun p => p.2 - avail).foldl max 0)

/-! ## The idle-probe rules -/

/-- Flaps of one alert: one timestamp for each fire that was followed by its recovery.
SOURCE: lss-core/src/rules.rs:306-315 -/
structure FlapTracker where
  flaps : List ℤ := []
  mutedAnnounced : Bool := false
deriving Inhabited

/-- SOURCE: lss-core/src/rules.rs:326 -/
def flapMuteWindowSecs : ℤ := 7200
/-- SOURCE: lss-core/src/rules.rs:327 -/
def flapMuteThreshold : ℕ := 3
/-- SOURCE: lss-core/src/rules.rs:330 -/
def flapLabelWindowSecs : ℤ := 86400

namespace FlapTracker

/-- SOURCE: lss-core/src/rules.rs:333-346 -/
def noteFlap (f : FlapTracker) (now : ℤ) : FlapTracker :=
  { f with flaps := (f.flaps ++ [now]).dropWhile fun t => decide (t ≤ now - flapLabelWindowSecs) }

/-- SOURCE: lss-core/src/rules.rs:348-350 -/
def countSince (f : FlapTracker) (now window : ℤ) : ℕ :=
  (f.flaps.filter fun t => decide (now - window < t)).length

/-- SOURCE: lss-core/src/rules.rs:352-354 -/
def muted (f : FlapTracker) (now : ℤ) : Bool :=
  decide (flapMuteThreshold ≤ f.countSince now flapMuteWindowSecs)

end FlapTracker

/-- The state of the two rules about idle probes.
SOURCE: lss-core/src/rules.rs:268-298 -/
structure C1State (F : Type) where
  baselineSamples : List F := []
  learnedBaseline : Option F := none
  /-- the low valid probes of the current streak, by the timestamp of the probe -/
  lowProbes : List (ℤ × F) := []
  announced : Bool := false
  lastSent : Option ℤ := none
  validated : Bool := false
  lastValidTs : Option ℤ := none
  stale : Sustained := {}
  staleFlaps : FlapTracker := {}
deriving Inhabited

/-- SOURCE: lss-core/src/rules.rs:357-363 -/
structure DigestGpu (F : Type) where
  maxTempC : F
  hotSecs : ℤ := 0
  throttledSecs : ℤ := 0

/-- What the daily digest of the excluded GPUs has added up.
SOURCE: lss-core/src/rules.rs:365-371 -/
structure Digest (F : Type) where
  windowStart : Option ℤ := none
  lastEval : Option ℤ := none
  gpus : Std.ExtTreeMap ℕ (DigestGpu F) := ∅
deriving Inhabited

/-- SOURCE: lss-core/src/rules.rs:373 -/
def digestPeriodSecs : ℤ := 86400

/-! ## The engine -/

/-- When an event rule was last sent, and the restarts that still owe a "stable again"
message.
SOURCE: lss-core/src/rules.rs:391-399 -/
structure RestartState where
  /-- by the text of the rule's key -/
  eventLastSent : Std.ExtTreeMap String ℤ := ∅
  restartPending : Std.ExtTreeMap String ℤ := ∅
  restartPlanned : Std.ExtTreeMap String Bool := ∅
deriving Inhabited

/-- The thermal state, per GPU.
SOURCE: lss-core/src/rules.rs:384-385 -/
structure ThermalState (F : Type) where
  thermalTemp : Std.ExtTreeMap ℕ Sustained := ∅
  thermalThrottle : Std.ExtTreeMap ℕ Sustained := ∅
  digest : Digest F := {}
deriving Inhabited

/-- The state the collector saves between polls.
SOURCE: lss-core/src/rules.rs:376-418 -/
structure Engine (F : Type) where
  serveDown : Sustained := {}
  serveDownPage : Sustained := {}
  gateDown : Sustained := {}
  queue : Sustained := {}
  waiters : Sustained := {}
  thermal : ThermalState F := {}
  gpuMissing : Sustained := {}
  gpuCountSeen : ℕ := 0
  rejects413 : GrowthWindow := {}
  rejects429 : GrowthWindow := {}
  restarts : RestartState := {}
  c1 : C1State F := {}
  ompDefault : Sustained := {}
  chargeErrors : Sustained := {}
  discountInert : Sustained := {}
  coldBudget : Sustained := {}
  diskFull : Sustained := {}
  diskFullPage : Sustained := {}
  diskGrowth : DiskGrowth := {}
deriving Inhabited

/-- Drops the probes from the low streak that are no valid readings any more; also says which.
SOURCE: lss-core/src/rules.rs:471-482 -/
def retainC1Streak {F : Type} (e : Engine F) (stillValid : ℤ → Bool) : Engine F × List ℤ :=
  ({ e with c1 := { e.c1 with lowProbes := e.c1.lowProbes.filter fun p => stillValid p.1 } },
    (e.c1.lowProbes.filter fun p => !stillValid p.1).map Prod.fst)

section Evaluate

variable {F : Type} [F64 F] (env : Env) (cfg : RulesConfig F) (o : Observation F)

/-- SOURCE: lss-core/src/rules.rs:953-1006 -/
def evalServeDown (serveDown serveDownPage : Sustained) :
    (Sustained × Sustained) × List AlertEvent :=
  let down := !o.serveUp
  let downFor := if down then serveDown.heldFor o.now else 0
  let wasDownFor := serveDown.heldFor o.now
  let warn := serveDown.step o.now down cfg.serveDownSecs cfg.cooldownSecs
  let page := serveDownPage.step o.now down cfg.serveDownPageSecs cfg.cooldownSecs
  ((warn.1, page.1),
    (if warn.2 = .fire then
      [alert o.now .serveDown .warn false
        ("serve DOWN for " ++ fmtDuration downFor ++ " (/v1/models not answering)")]
    else []) ++
    (if page.2 = .fire then
      [alert o.now .serveDownPage .page false
        ("serve STILL DOWN after " ++ fmtDuration downFor ++ " - needs a human")]
    else []) ++
    (if warn.2 = .recover ∨ page.2 = .recover then
      [alert o.now .serveDown (if page.2 = .recover then .page else .warn) true
        ("serve recovered after " ++ fmtDuration wasDownFor ++ " down")]
    else []))

/-- SOURCE: lss-core/src/rules.rs:1008-1017 -/
def evalGateDown (gateDown : Sustained) : Sustained × List AlertEvent :=
  let was := gateDown.heldFor o.now
  let e := gateDown.step o.now (!o.gateUp) cfg.gateDownSecs cfg.cooldownSecs
  (e.1, pushEdge e.2 o.now .gateDown .warn
    ("the gateway DOWN for " ++ fmtDuration was ++
      " (/gate/health not answering) - public endpoint is dark")
    ("the gateway recovered after " ++ fmtDuration was ++ " down"))

/-- SOURCE: lss-core/src/rules.rs:1215-1219 -/
def eventCooled (lastSent : Std.ExtTreeMap String ℤ) (key : RuleKey) (now cooldown : ℤ) : Bool :=
  match lastSent[key.text]? with
  | none => true
  | some t => decide (cooldown ≤ now - t)

/-- The severity and the label of a restart's messages. -/
def restartLabel (planned : Bool) : Severity × String :=
  if planned then (.info, "planned - ") else (.warn, "")

/-- One observed restart.
SOURCE: lss-core/src/rules.rs:1096-1121 -/
def noteRestart (st : RestartState) (r : RestartObs) : RestartState × List AlertEvent :=
  if eventCooled st.eventLastSent (.containerRestart r.role) o.now cfg.cooldownSecs then
    ({ eventLastSent := st.eventLastSent.insert (RuleKey.containerRestart r.role).text o.now
       restartPending := st.restartPending.insert r.role o.now
       restartPlanned := st.restartPlanned.insert r.role o.maintenanceActive },
      [alert o.now (.containerRestart r.role) (restartLabel o.maintenanceActive).1 false
        ((restartLabel o.maintenanceActive).2 ++ r.role ++ " container restarted: " ++
          r.detail)])
  else if st.restartPending.contains r.role then
    ({ st with restartPending := st.restartPending.insert r.role o.now }, [])
  else (st, [])

/-- Whether a role that restarted at `since` has been up long enough.
SOURCE: lss-core/src/rules.rs:1125-1133 -/
def restartStable (role : String) (since : ℤ) : Bool :=
  o.runningRoles.contains role && (if role = "serve" then o.serveUp else o.gateUp) &&
    decide (cfg.restartStableSecs ≤ o.now - since)

/-- One role that is stable again.
SOURCE: lss-core/src/rules.rs:1136-1155 -/
def settleRestart (st : RestartState) (role : String) : RestartState × List AlertEvent :=
  let since := st.restartPending[role]?.getD o.now
  let label := restartLabel (st.restartPlanned[role]?.getD false)
  ({ st with
      restartPending := st.restartPending.erase role
      restartPlanned := st.restartPlanned.erase role },
    [alert o.now (.containerRestart role) label.1 true
      (label.2 ++ role ++ " container recovered: running and answering " ++
        fmtDuration (o.now - since) ++ " after the restart")])

/-- SOURCE: lss-core/src/rules.rs:1095-1156 -/
def evalRestarts (st : RestartState) : RestartState × List AlertEvent :=
  let noted := Machine.run (noteRestart cfg o) st o.restarts
  let stable := (noted.1.restartPending.toList.filter
    fun p => restartStable cfg o p.1 p.2).map Prod.fst
  let settled := Machine.run (settleRestart o) noted.1 stable
  (settled.1, noted.2 ++ settled.2)

/-- The label of the GPU in the key of a fault: its index, else its address.
SOURCE: lss-core/src/rules.rs:1191-1194 -/
def xidRuleKey (x : XidEvent) : RuleKey :=
  match x.gpu with
  | some i => .xid ("gpu" ++ toString i)
  | none => .xid x.pci

/-- One GPU fault.
SOURCE: lss-core/src/rules.rs:1195-1211 -/
def noteXid (lastSent : Std.ExtTreeMap String ℤ) (x : XidEvent) :
    Std.ExtTreeMap String ℤ × List AlertEvent :=
  if eventCooled lastSent (xidRuleKey x) o.now cfg.cooldownSecs then
    (lastSent.insert (xidRuleKey x).text o.now,
      [alert o.now (xidRuleKey x) .hardware false
        (x.gpuLabel ++ " Xid " ++ toString x.xid ++ " - " ++ xidHint x.xid ++
          " [" ++ x.detail ++ "]")])
  else (lastSent, [])

/-- SOURCE: lss-core/src/rules.rs:1189-1213 -/
def evalXids (lastSent : Std.ExtTreeMap String ℤ) : Std.ExtTreeMap String ℤ × List AlertEvent :=
  Machine.run (noteXid cfg o) lastSent o.xids

/-- SOURCE: lss-core/src/rules.rs:1294-1340 -/
def evalQueue (queue waiters : Sustained) : (Sustained × Sustained) × List AlertEvent :=
  let q := if o.benchActive then F64.lit 0 else o.queue.getD (F64.lit 0)
  let eq := queue.step o.now (F64.le cfg.queueReqs q) cfg.queueSecs cfg.cooldownSecs
  let w := if o.benchActive then 0 else o.trustedWaiters.getD 0
  let ew := waiters.step o.now (decide (0 < w)) cfg.waitersSecs cfg.cooldownSecs
  ((eq.1, ew.1),
    pushEdge eq.2 o.now .queuePressure .warn
      ("queue pressure: " ++ F64.fixed 0 q ++ " requests queued (>= " ++
        F64.fixed 0 cfg.queueReqs ++ ") for " ++ fmtDuration cfg.queueSecs)
      ("queue pressure recovered: " ++ F64.fixed 0 q ++ " queued") ++
    pushEdge ew.2 o.now .gateWaiters .warn
      ("queue pressure: " ++ toString w ++
        " trusted request(s) waiting at the gate for token budget for " ++
        fmtDuration cfg.waitersSecs)
      "gate waiters recovered: nobody waiting for token budget")

/-- Whether a GPU is at or above the temperature of the rule.
SOURCE: lss-core/src/rules.rs:1367 -/
def gpuHot (g : GpuObs F) : Bool := g.tempC.any fun t => F64.le cfg.thermalTempC t

/-- Whether a GPU slows down because of heat.
SOURCE: lss-core/src/rules.rs:1368 -/
def gpuThrottled (g : GpuObs F) : Bool := g.throttleMask &&& throttleThermalMask != 0

/-- A GPU that never alerts: its reading only goes into the daily digest, `dt` seconds after
the previous one.
SOURCE: lss-core/src/rules.rs:1370-1373 -/
def digestGpu (dt : ℤ) (st : ThermalState F) (g : GpuObs F) : ThermalState F :=
  let d := st.digest.gpus[g.index]?.getD { maxTempC := F64.lit 0 }
  let d' : DigestGpu F :=
    { maxTempC := F64.max d.maxTempC (g.tempC.getD (F64.lit 0))
      hotSecs := d.hotSecs + (if gpuHot cfg g then dt else 0)
      throttledSecs := d.throttledSecs + (if gpuThrottled g then dt else 0) }
  { st with digest := { st.digest with gpus := st.digest.gpus.insert g.index d' } }

/-- The two thermal rules of a GPU.
SOURCE: lss-core/src/rules.rs:1376-1422 -/
def judgeGpu (st : ThermalState F) (g : GpuObs F) : ThermalState F × List AlertEvent :=
  let t := g.tempC.getD (F64.lit 0)
  let hot := (st.thermalTemp[g.index]?.getD {}).step o.now (gpuHot cfg g) cfg.thermalSecs
    cfg.cooldownSecs
  let slow := (st.thermalThrottle[g.index]?.getD {}).step o.now (gpuThrottled g)
    cfg.thermalSecs cfg.cooldownSecs
  ({ st with
      thermalTemp := st.thermalTemp.insert g.index hot.1
      thermalThrottle := st.thermalThrottle.insert g.index slow.1 },
    pushEdge hot.2 o.now (.thermalTemp g.index) .warn
      ("GPU" ++ toString g.index ++ " at " ++ temp env t ++ ", >= " ++
        temp env cfg.thermalTempC ++ " for " ++ fmtDuration cfg.thermalSecs)
      ("GPU" ++ toString g.index ++ " thermal recovered: " ++ temp env t) ++
    pushEdge slow.2 o.now (.thermalThrottle g.index) .warn
      ("GPU" ++ toString g.index ++ " thermal slowdown active (" ++
        "+".intercalate (throttleFlags g.throttleMask) ++ ") for " ++
        fmtDuration cfg.thermalSecs ++ ", " ++ temp env t)
      ("GPU" ++ toString g.index ++ " thermal slowdown cleared"))

/-- SOURCE: lss-core/src/rules.rs:1366-1423 -/
def evalGpu (dt : ℤ) (st : ThermalState F) (g : GpuObs F) : ThermalState F × List AlertEvent :=
  if cfg.thermalExclude.contains g.index then (digestGpu cfg dt st g, [])
  else judgeGpu env cfg o st g

/-- The daily digest, once its period is over.
SOURCE: lss-core/src/rules.rs:1425-1459 -/
def evalDigest (digest : Digest F) : Digest F × List AlertEvent :=
  if digest.windowStart.any (fun s => decide (digestPeriodSecs ≤ o.now - s)) then
    let lines := (digest.gpus.toList.filter
      fun p => decide (0 < p.2.hotSecs) || decide (0 < p.2.throttledSecs)).map fun p =>
        "GPU" ++ toString p.1 ++ " max " ++ temp env p.2.maxTempC ++ ", " ++
          fmtDuration p.2.hotSecs ++ " at >= " ++ temp env cfg.thermalTempC ++ ", " ++
          fmtDuration p.2.throttledSecs ++ " thermally throttled"
    ({ digest with gpus := ∅, windowStart := some o.now },
      if lines = [] then []
      else [alert o.now .thermalDigest .info false
        ("daily thermal digest (excluded from alerts): " ++ "; ".intercalate lines)])
  else (digest, [])

/-- How many seconds a reading stands for in the digest.
SOURCE: lss-core/src/rules.rs:1359-1362 -/
def digestDt (digest : Digest F) : ℤ :=
  match digest.lastEval with
  | none => 0
  | some t => min (max (o.now - t) 0) 60

/-- SOURCE: lss-core/src/rules.rs:1363-1364 -/
def openDigest (digest : Digest F) : Digest F :=
  { digest with
    lastEval := some o.now
    windowStart := some (digest.windowStart.getD o.now) }

/-- The thermal rules of every GPU of a reading. Without a reading they are held.
SOURCE: lss-core/src/rules.rs:1354-1460 -/
def evalThermal (st : ThermalState F) : ThermalState F × List AlertEvent :=
  match o.gpus with
  | none => ({ st with digest := { st.digest with lastEval := some o.now } }, [])
  | some gpus =>
    let judged := Machine.run (evalGpu env cfg o (digestDt o st.digest))
      { st with digest := openDigest o st.digest } gpus
    let digested := evalDigest env cfg o judged.1.digest
    ({ judged.1 with digest := digested.1 }, judged.2 ++ digested.2)

/-- The number of GPUs an observation shows.
SOURCE: lss-core/src/rules.rs:1343 -/
def gpuCount : ℕ := (o.gpus.map List.length).getD 0

/-- SOURCE: lss-core/src/rules.rs:1343-1352 -/
def evalGpuMissing (gpuMissing : Sustained) (gpuCountSeen : ℕ) :
    (Sustained × ℕ) × List AlertEvent :=
  let count := gpuCount o
  let seen := max gpuCountSeen count
  let e := gpuMissing.step o.now (decide (count < seen)) cfg.gpuMissingSecs cfg.cooldownSecs
  ((e.1, seen), pushEdge e.2 o.now .gpuMissing .hardware
    ("nvidia-smi reports " ++ toString count ++ " GPU(s), expected " ++ toString seen ++
      " - a GPU may have fallen off the bus")
    ("all " ++ toString count ++ " GPUs visible again"))

/-- The middle of a list of numbers.
SOURCE: lss-core/src/rules.rs:1658-1670 -/
def median (values : List F) : F :=
  let v := (values.filter F64.isFinite).mergeSort F64.totalLe
  let mid := v.length / 2
  if v = [] then F64.lit 0
  else if v.length % 2 = 1 then v.getD mid (F64.lit 0)
  else (v.getD (mid - 1) (F64.lit 0) + v.getD mid (F64.lit 0)) / F64.lit 2

/-- The baseline in force: the configured value, else the learned median.
SOURCE: lss-core/src/rules.rs:454-457 -/
def c1Baseline (c1 : C1State F) : Option F := cfg.c1BaselineTokS.or c1.learnedBaseline

/-- Whether the low-decode rule may send again.
SOURCE: lss-core/src/rules.rs:1479-1482 -/
def c1Cooled (c1 : C1State F) : Bool :=
  match c1.lastSent with
  | none => true
  | some t => decide (cfg.cooldownSecs ≤ o.now - t)

/-- The streak after a valid probe below the floor.
SOURCE: lss-core/src/rules.rs:1474-1477 -/
def c1LowProbes (c1 : C1State F) (v : F) : List (ℤ × F) :=
  let ts := o.probeTs.getD o.now
  if c1.lowProbes.any (fun p => p.1 == ts) then c1.lowProbes else c1.lowProbes ++ [(ts, v)]

/-- The message of the low-decode rule.
SOURCE: lss-core/src/rules.rs:1486-1496 -/
def c1LowAlert (low : List (ℤ × F)) (v baseline floor : F) : AlertEvent :=
  alert o.now .c1Decode .warn false
    ("C1 decode " ++ F64.fixed 1 v ++ " tok/s, below " ++ F64.fixed 1 floor ++ " (" ++
      F64.fixed 0 (cfg.c1Ratio * F64.lit 100) ++ "% of baseline " ++ F64.fixed 1 baseline ++
      ") on " ++ toString low.length ++ " consecutive valid idle probes (probes " ++
      ", ".intercalate (low.map fun p => env.fmtUtc p.1 ++ " " ++ F64.fixed 1 p.2) ++ ")")

/-- A valid probe below the floor.
SOURCE: lss-core/src/rules.rs:1474-1497 -/
def c1Low (c1 : C1State F) (v baseline floor : F) : C1State F × List AlertEvent :=
  let low := c1LowProbes o c1 v
  if decide (cfg.c1Consecutive ≤ low.length) && !c1.announced && c1Cooled cfg o c1 then
    ({ c1 with lowProbes := low, announced := true, lastSent := some o.now },
      [c1LowAlert env cfg o low v baseline floor])
  else ({ c1 with lowProbes := low }, [])

/-- One valid idle probe.
SOURCE: lss-core/src/rules.rs:1468-1517 -/
def c1Probe (c1 : C1State F) (v : F) : C1State F × List AlertEvent :=
  let c1 := { c1 with validated := true, lastValidTs := some o.now }
  match c1Baseline cfg c1 with
  | some baseline =>
    let floor := cfg.c1Ratio * baseline
    if F64.lt v floor then c1Low env cfg o c1 v baseline floor
    else
      ({ c1 with lowProbes := [], announced := false },
        if c1.announced then
          [alert o.now .c1Decode .warn true
            ("C1 decode recovered: " ++ F64.fixed 1 v ++ " tok/s (baseline " ++
              F64.fixed 1 baseline ++ ")")]
        else [])
  | none =>
    let samples := c1.baselineSamples ++ [v]
    ({ c1 with
        baselineSamples := samples
        learnedBaseline := if max cfg.c1BaselineProbes 1 ≤ samples.length
          then some (median samples) else c1.learnedBaseline }, [])

/-- SOURCE: lss-core/src/rules.rs:1541 -/
def c1StaleFireHoldSecs : ℤ := 300

/-- How old the newest valid reading may get, in seconds.
SOURCE: lss-core/src/rules.rs:1545-1546 -/
def c1StaleThreshold : ℤ :=
  max o.probeIntervalSecs 1 * (max cfg.c1StaleProbeIntervals 1 : ℕ)

/-- How long there has been no valid reading, in seconds. The very first evaluation counts as
a reading.
SOURCE: lss-core/src/rules.rs:1544-1547 -/
def c1StaleFor (c1 : C1State F) : ℤ := o.now - c1.lastValidTs.getD o.now

/-- One judgement of the staleness rule.
SOURCE: lss-core/src/rules.rs:1549-1554 -/
def c1StaleStep (c1 : C1State F) : Sustained × Edge :=
  c1.stale.step o.now (decide (c1StaleThreshold cfg o ≤ c1StaleFor o c1)) c1StaleFireHoldSecs
    cfg.cooldownSecs

/-- The flaps after one judgement of the staleness rule.
SOURCE: lss-core/src/rules.rs:1555-1557 -/
def c1StaleFlaps (c1 : C1State F) : FlapTracker :=
  if (c1StaleStep cfg o c1).2 = .recover then c1.staleFlaps.noteFlap o.now else c1.staleFlaps

/-- The message that there has been no valid reading for a while.
SOURCE: lss-core/src/rules.rs:1559-1568 -/
def c1StaleFire (now staleFor : ℤ) : AlertEvent :=
  alert now .c1Stale .info false
    ("C1 has not been able to measure for " ++ fmtDuration staleFor ++
      " - the server has been busy")

/-- The message that there is a valid reading again.
SOURCE: lss-core/src/rules.rs:1569-1578 -/
def c1StaleRecovered (now wasStaleFor : ℤ) : AlertEvent :=
  alert now .c1Stale .info true
    ("C1 is measuring again after " ++ fmtDuration wasStaleFor ++
      " unable to get a valid reading")

/-- The message that the measurement itself is unreliable.
SOURCE: lss-core/src/rules.rs:1582-1586 -/
def c1Unreliable (now : ℤ) (flaps : ℕ) : AlertEvent :=
  alert now .c1Stale .info false
    ("c1_stale has flapped " ++ toString flaps ++ " times in " ++
      fmtDuration flapMuteWindowSecs ++
      " - the MEASUREMENT is unreliable, not the server; going quiet on individual " ++
      "fire/recover pairs, the row stays visible and counted")

/-- The staleness rule. Once it has flapped too often, its single messages are muted and one
message about the measurement itself is sent instead.
SOURCE: lss-core/src/rules.rs:1540-1590 -/
def evalC1Stale (c1 : C1State F) : C1State F × List AlertEvent :=
  let e := c1StaleStep cfg o c1
  let flaps := c1StaleFlaps cfg o c1
  let muted := flaps.muted o.now
  ({ c1 with
      lastValidTs := some (c1.lastValidTs.getD o.now)
      stale := e.1
      staleFlaps := { flaps with mutedAnnounced := muted } },
    (if muted then [] else
      match e.2 with
      | .fire => [c1StaleFire o.now (c1StaleFor o c1)]
      | .recover => [c1StaleRecovered o.now (c1.stale.heldFor o.now)]
      | .none => []) ++
    (if muted && !flaps.mutedAnnounced then
      [c1Unreliable o.now (flaps.countSince o.now flapMuteWindowSecs)]
    else []))

/-- The low-decode rule, when a valid probe has completed.
SOURCE: lss-core/src/rules.rs:1468-1517 -/
def evalC1Decode (c1 : C1State F) : C1State F × List AlertEvent :=
  match o.probeTokS with
  | none => (c1, [])
  | some v => c1Probe env cfg o c1 v

/-- SOURCE: lss-core/src/rules.rs:1462-1521 -/
def evalC1 (c1 : C1State F) : C1State F × List AlertEvent :=
  if o.benchActive then (c1, [])
  else
    let decode := evalC1Decode env cfg o c1
    let stale := evalC1Stale cfg o decode.1
    (stale.1, decode.2 ++ stale.2)

/-- The growth rule of one kind of refusal.
SOURCE: lss-core/src/rules.rs:1593-1625 -/
def evalReject (key : RuleKey) (code : String) (value : Option ℕ) (win : GrowthWindow) :
    GrowthWindow × List AlertEvent :=
  match value with
  | none => (win, [])
  | some value =>
    let pushed := GrowthWindow.push win.points o.now value cfg.rejectWindowSecs
    let growth := pushed.2
    let e := win.rule.step o.now (decide (cfg.rejectGrowth < growth)) 0 cfg.cooldownSecs
    ({ points := pushed.1, rule := e.1 },
      pushEdge e.2 o.now key .info
        ("gate rejected_" ++ code ++ " grew by " ++ toString growth ++ " in " ++
          fmtDuration cfg.rejectWindowSecs ++ " (> " ++ toString cfg.rejectGrowth ++ ")")
        ("gate rejected_" ++ code ++ " growth back to normal (" ++ toString growth ++ " in " ++
          fmtDuration cfg.rejectWindowSecs ++ ")"))

/-- SOURCE: lss-core/src/rules.rs:1165-1187 -/
def evalOmpDefault (ompDefault : Sustained) : Sustained × List AlertEvent :=
  let e := ompDefault.step o.now o.ompMismatch.isSome cfg.ompMismatchHoldSecs cfg.cooldownSecs
  let models := o.ompMismatch.getD ("", "")
  (e.1, pushEdge e.2 o.now .ompDefaultMismatch .warn
    ("omp's default model (" ++ models.1 ++ ") is not what is served (" ++ models.2 ++
      ") - agent sessions may silently fall back to an outside provider: " ++
      "re-point omp's default at the served id")
    "omp's default model matches what is served again")

/-- SOURCE: lss-core/src/rules.rs:1025-1056 -/
def evalCharging (chargeErrors discountInert : Sustained) :
    (Sustained × Sustained) × List AlertEvent :=
  match o.gateShadow with
  | none => ((chargeErrors, discountInert), [])
  | some sh =>
    let errors := sh.chargeErrors
    let ee := chargeErrors.step o.now (decide (0 < errors)) cfg.chargeErrorsSecs cfg.cooldownSecs
    let ei := discountInert.step o.now (sh.discountInert cfg.discountMinAdmissions)
      cfg.discountInertSecs cfg.cooldownSecs
    ((ee.1, ei.1),
      pushEdge ee.2 o.now .gateChargeErrors .warn
        ("the gateway charge path FAILING (" ++ toString errors ++ " errors): every trusted " ++
          "request is charging GROSS prompt tokens, so the budget refuses our own agents at " ++
          "~10x the real cost. /gate/health shadow.charge_errors, and the gate log's " ++
          "charge_failed_gross line names the exception")
        "the gateway charge path recovered: effective-token charging is working again" ++
      pushEdge ei.2 o.now .gateDiscountInert .warn
        ("the gateway discount INERT: warm cache, engine visible, " ++
          toString sh.recentAdmissions ++ " recent admissions and NOT ONE discounted. Nothing " ++
          "raised - this is the shape card #68 hid in for 2,809 requests. Check /gate/health " ++
          "shadow and the shadow log's charged_tokens vs est_tokens")
        "the gateway discount is engaging again")

/-- What the cold-budget rule judges: the tokens in flight, the capacity and the cache hit
rate, when all of them were read and no benchmark is running.
SOURCE: lss-core/src/rules.rs:1072-1079 -/
def coldBudgetReading : Option (ℕ × ℕ × F) :=
  if o.benchActive then none
  else
    match o.trustedInflightTokens, o.cacheHitRate, o.trustedBudgetTokens.filter (0 < ·) with
    | some inflight, some hit, some capacity => some (inflight, capacity, hit)
    | _, _, _ => none

/-- SOURCE: lss-core/src/rules.rs:1063-1093 -/
def evalColdBudget (coldBudget : Sustained) : Sustained × List AlertEvent :=
  match coldBudgetReading o with
  | none => (coldBudget, [])
  | some (inflight, capacity, hit) =>
    let full := F64.le (F64.lit (9 / 10) * F64.ofNat capacity) (F64.ofNat inflight : F)
    let breach := full && F64.lt hit cfg.coldBudgetHitRate
    let e := coldBudget.step o.now breach cfg.coldBudgetSecs cfg.cooldownSecs
    (e.1, pushEdge e.2 o.now .gateColdBudget .warn
      ("COLD-CACHE HEAVY BUDGET: " ++ toString inflight ++ " of " ++ toString capacity ++
        " tokens in flight (>=90% full) with cache hit below " ++
        F64.display (cfg.coldBudgetHitRate * F64.lit 100) ++ " for " ++
        fmtDuration cfg.coldBudgetSecs ++
        " - the budget's tokens are now REAL prefill; this is the state that preceded both " ++
        "Xid-8 hangs. Reduce the budget or shed load before the engine wedges")
      ("cold-cache heavy budget recovered: in-flight back under the ceiling or the cache " ++
        "warmed up"))

/-- Whether the disk is over a line, with the margin a rule that has fired recovers below.
SOURCE: lss-core/src/rules.rs:1242-1246 -/
def diskOver (s : Sustained) (pct line : F) : Bool :=
  if s.announced then F64.le (line - cfg.diskRecoverMarginPct) pct else F64.le line pct

/-- One of the two rules about the level of the disk.
SOURCE: lss-core/src/rules.rs:1242-1261 -/
def evalDiskLevel (d : DiskObs) (s : Sustained) (line : F) (rule : RuleKey) (sev : Severity) :
    Sustained × List AlertEvent :=
  let e := s.step o.now (diskOver cfg s (d.usedPct F) line) cfg.diskSecs cfg.cooldownSecs
  (e.1, pushEdge e.2 o.now rule sev
    ("disk " ++ d.path ++ " on this box is " ++ d.describe F ++ " - >= " ++
      F64.fixed 0 line ++ "% for " ++ fmtDuration cfg.diskSecs)
    ("disk " ++ d.path ++ " back to " ++ d.describe F))

/-- SOURCE: lss-core/src/rules.rs:1225-1292 -/
def evalDisk (diskFull diskFullPage : Sustained) (diskGrowth : DiskGrowth) :
    (Sustained × Sustained × DiskGrowth) × List AlertEvent :=
  match o.disk with
  | none => ((diskFull, diskFullPage, diskGrowth), [])
  | some d =>
    let warn := evalDiskLevel cfg o d diskFull cfg.diskWarnPct .diskFull .warn
    let page := evalDiskLevel cfg o d diskFullPage cfg.diskPagePct .diskFullPage .page
    let line := cfg.diskGrowthGb * F64.lit 1000000000
    let pushed := DiskGrowth.push diskGrowth.points o.now d.availBytes cfg.diskGrowthSecs
    let drop : F := F64.ofNat pushed.2
    let e := diskGrowth.rule.step o.now (F64.le line drop) cfg.diskSecs cfg.cooldownSecs
    let fill := "lost " ++ F64.fixed 1 (drop / F64.lit 1000000000) ++ " GB free of " ++ d.path ++
      " in " ++ fmtDuration cfg.diskGrowthSecs ++ " (now " ++ d.describe F ++ ")"
    ((warn.1, page.1, { points := pushed.1, rule := e.1 }),
      warn.2 ++ page.2 ++
      pushEdge e.2 o.now .diskGrowth .warn
        ("disk " ++ d.path ++ " is filling fast: " ++ fill)
        ("disk " ++ d.path ++ " is no longer filling fast: " ++ fill))

/-- SOURCE: lss-core/src/rules.rs:940-949 -/
def evalTestAlerts : List AlertEvent :=
  o.testAlerts.map fun msg => alert o.now .testAlert .info false ("[TEST] " ++ msg)

/-- One evaluation of every rule.
SOURCE: lss-core/src/rules.rs:910-951 -/
def evaluate (e : Engine F) : Engine F × List AlertEvent :=
  let serve := evalServeDown cfg o e.serveDown e.serveDownPage
  let gate := evalGateDown cfg o e.gateDown
  let restarts := evalRestarts cfg o e.restarts
  let xids := evalXids cfg o restarts.1.eventLastSent
  let queue := evalQueue cfg o e.queue e.waiters
  let missing := evalGpuMissing cfg o e.gpuMissing e.gpuCountSeen
  let thermal := evalThermal env cfg o e.thermal
  let c1 := evalC1 env cfg o e.c1
  let r413 := evalReject cfg o .rejects413 "413" o.rejected413 e.rejects413
  let r429 := evalReject cfg o .rejects429 "429" o.rejected429 e.rejects429
  let omp := evalOmpDefault cfg o e.ompDefault
  let charging := evalCharging cfg o e.chargeErrors e.discountInert
  let cold := evalColdBudget cfg o e.coldBudget
  let disk := evalDisk cfg o e.diskFull e.diskFullPage e.diskGrowth
  ({ serveDown := serve.1.1
     serveDownPage := serve.1.2
     gateDown := gate.1
     queue := queue.1.1
     waiters := queue.1.2
     thermal := thermal.1
     gpuMissing := missing.1.1
     gpuCountSeen := missing.1.2
     rejects413 := r413.1
     rejects429 := r429.1
     restarts := { restarts.1 with eventLastSent := xids.1 }
     c1 := c1.1
     ompDefault := omp.1
     chargeErrors := charging.1.1
     discountInert := charging.1.2
     coldBudget := cold.1
     diskFull := disk.1.1
     diskFullPage := disk.1.2.1
     diskGrowth := disk.1.2.2 },
    serve.2 ++ gate.2 ++ restarts.2 ++ xids.2 ++ queue.2 ++ missing.2 ++ thermal.2 ++ c1.2 ++
      r413.2 ++ r429.2 ++ omp.2 ++ charging.2 ++ cold.2 ++ disk.2 ++ evalTestAlerts o)

/-- The engine and the messages of a run of evaluations, from a fresh engine. -/
def evaluateAll (os : List (Observation F)) : Engine F × List AlertEvent :=
  Machine.run (fun e o => evaluate env cfg o e) {} os

end Evaluate

end Lss.Model
