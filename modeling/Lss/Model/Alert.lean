import Lss.Model.Text

/-!
# What the alert rules read and write

The configuration of the rules, the observation they judge, and the events they emit. A
rule is named by a key; the source keeps the key as a text, and `RuleKey.text` is that text.
-/

set_option autoImplicit false

namespace Lss.Model

/-- SOURCE: lss-core/src/rules.rs:20-37 -/
inductive Severity where
  | info
  | warn
  | page
  | hardware
deriving DecidableEq

/-- The key of a rule. The thermal rules have one key per GPU, the event rules one per
container role or per GPU.
SOURCE: lss-core/src/rules.rs:42-43 -/
inductive RuleKey where
  | serveDown
  | serveDownPage
  | gateDown
  | gateChargeErrors
  | gateDiscountInert
  | gateColdBudget
  | queuePressure
  | gateWaiters
  | gpuMissing
  | thermalTemp (gpu : ℕ)
  | thermalThrottle (gpu : ℕ)
  | thermalDigest
  | rejects413
  | rejects429
  | c1Decode
  | c1Stale
  | ompDefaultMismatch
  | diskFull
  | diskFullPage
  | diskGrowth
  | containerRestart (role : String)
  | xid (label : String)
  | testAlert
deriving DecidableEq

/-- The key as it is stored and sent. -/
def RuleKey.text : RuleKey → String
  | .serveDown => "serve_down"
  | .serveDownPage => "serve_down_page"
  | .gateDown => "gate_down"
  | .gateChargeErrors => "gate_charge_errors"
  | .gateDiscountInert => "gate_discount_inert"
  | .gateColdBudget => "gate_cold_budget"
  | .queuePressure => "queue_pressure"
  | .gateWaiters => "gate_waiters"
  | .gpuMissing => "gpu_missing"
  | .thermalTemp i => "thermal_temp:gpu" ++ toString i
  | .thermalThrottle i => "thermal_throttle:gpu" ++ toString i
  | .thermalDigest => "thermal_digest"
  | .rejects413 => "rejects_413"
  | .rejects429 => "rejects_429"
  | .c1Decode => "c1_decode"
  | .c1Stale => "c1_stale"
  | .ompDefaultMismatch => "omp_default_mismatch"
  | .diskFull => "disk_full"
  | .diskFullPage => "disk_full_page"
  | .diskGrowth => "disk_growth"
  | .containerRestart role => "container_restart:" ++ role
  | .xid label => "xid:" ++ label
  | .testAlert => "test_alert"

/-- One message of a rule.
SOURCE: lss-core/src/rules.rs:39-48 -/
structure AlertEvent where
  ts : ℤ
  rule : RuleKey
  severity : Severity
  message : String
  /-- true for the "recovered" message of a rule -/
  recovered : Bool
deriving DecidableEq

/-- SOURCE: lss-core/src/rules.rs:1627-1640 -/
def alert (ts : ℤ) (rule : RuleKey) (severity : Severity) (recovered : Bool) (message : String) :
    AlertEvent where
  ts := ts
  rule := rule
  severity := severity
  message := if recovered then "RECOVERED: " ++ message else message
  recovered := recovered

@[simp] theorem alert_ts (ts : ℤ) (rule : RuleKey) (sev : Severity) (rec : Bool) (m : String) :
    (alert ts rule sev rec m).ts = ts := rfl

@[simp] theorem alert_rule (ts : ℤ) (rule : RuleKey) (sev : Severity) (rec : Bool) (m : String) :
    (alert ts rule sev rec m).rule = rule := rfl

@[simp] theorem alert_recovered (ts : ℤ) (rule : RuleKey) (sev : Severity) (rec : Bool)
    (m : String) : (alert ts rule sev rec m).recovered = rec := rfl

/-- SOURCE: lss-core/src/config.rs:289-363 -/
structure RulesConfig (F : Type) where
  cooldownSecs : ℤ
  serveDownSecs : ℤ
  serveDownPageSecs : ℤ
  gateDownSecs : ℤ
  queueReqs : F
  queueSecs : ℤ
  waitersSecs : ℤ
  thermalTempC : F
  thermalSecs : ℤ
  thermalExclude : List ℕ
  gpuMissingSecs : ℤ
  c1Ratio : F
  c1Consecutive : ℕ
  c1BaselineTokS : Option F
  c1BaselineProbes : ℕ
  c1StaleProbeIntervals : ℕ
  rejectGrowth : ℕ
  rejectWindowSecs : ℤ
  restartStableSecs : ℤ
  ompMismatchHoldSecs : ℤ
  chargeErrorsSecs : ℤ
  discountInertSecs : ℤ
  discountMinAdmissions : ℕ
  coldBudgetSecs : ℤ
  coldBudgetHitRate : F
  diskWarnPct : F
  diskPagePct : F
  diskSecs : ℤ
  diskRecoverMarginPct : F
  diskGrowthGb : F
  diskGrowthSecs : ℤ

/-- The configuration of a collector whose file sets none of these.
SOURCE: lss-core/src/config.rs:365-410 -/
def RulesConfig.default {F : Type} [F64 F] : RulesConfig F where
  cooldownSecs := 1800
  serveDownSecs := 120
  serveDownPageSecs := 900
  gateDownSecs := 120
  queueReqs := F64.lit 24
  queueSecs := 120
  waitersSecs := 300
  thermalTempC := F64.lit 90
  thermalSecs := 600
  thermalExclude := []
  gpuMissingSecs := 60
  c1Ratio := F64.lit (4 / 5)
  c1Consecutive := 3
  c1BaselineTokS := none
  c1BaselineProbes := 12
  c1StaleProbeIntervals := 6
  rejectGrowth := 20
  rejectWindowSecs := 600
  restartStableSecs := 120
  ompMismatchHoldSecs := 600
  chargeErrorsSecs := 60
  discountInertSecs := 600
  discountMinAdmissions := 50
  coldBudgetSecs := 120
  coldBudgetHitRate := F64.lit (9 / 10)
  diskWarnPct := F64.lit 90
  diskPagePct := F64.lit 97
  diskSecs := 60
  diskRecoverMarginPct := F64.lit 2
  diskGrowthGb := F64.lit 100
  diskGrowthSecs := 600

/-- The gateway's own view of its token charging.
SOURCE: lss-core/src/gate.rs:69-89 -/
structure GateShadow where
  enabled : Bool := false
  healthy : Bool := false
  cacheWarm : Option Bool := none
  chargeErrors : ℕ := 0
  recentAdmissions : ℕ := 0
  recentDiscounted : ℕ := 0

/-- Warm, seeing the engine, plenty of traffic, and not one discount.
SOURCE: lss-core/src/gate.rs:94-100 -/
def GateShadow.discountInert (s : GateShadow) (minN : ℕ) : Bool :=
  s.enabled && s.healthy && s.cacheWarm == some true && decide (minN ≤ s.recentAdmissions) &&
    s.recentDiscounted == 0

/-- SOURCE: lss-core/src/rules.rs:50-55 -/
structure GpuObs (F : Type) where
  index : ℕ
  tempC : Option F
  throttleMask : ℕ

/-- SOURCE: lss-core/src/rules.rs:57-62 -/
structure RestartObs where
  role : String
  detail : String

/-- One reading of the file system the collector watches.
SOURCE: lss-core/src/rules.rs:65-71 -/
structure DiskObs where
  path : String
  totalBytes : ℕ
  availBytes : ℕ

section Disk

variable (F : Type) [F64 F]

/-- The share of the disk a normal user can not write, in percent.
SOURCE: lss-core/src/rules.rs:78-84 -/
def DiskObs.usedPct (d : DiskObs) : F :=
  if d.totalBytes = 0 then F64.lit 0
  else F64.lit 100 * (F64.lit 1 - F64.ofNat d.availBytes / F64.ofNat d.totalBytes)

/-- SOURCE: lss-core/src/rules.rs:86-93 -/
def DiskObs.describe (d : DiskObs) : String :=
  F64.fixed 1 (d.usedPct F) ++ "% used (" ++ gb d.availBytes ++ " free of " ++
    gb d.totalBytes ++ ")"

end Disk

/-- What one evaluation of the rules judges.
SOURCE: lss-core/src/rules.rs:111-174 -/
structure Observation (F : Type) where
  now : ℤ
  serveUp : Bool := false
  gateUp : Bool := false
  queue : Option F := none
  trustedWaiters : Option ℕ := none
  trustedInflightTokens : Option ℕ := none
  trustedBudgetTokens : Option ℕ := none
  cacheHitRate : Option F := none
  rejected413 : Option ℕ := none
  rejected429 : Option ℕ := none
  gpus : Option (List (GpuObs F)) := none
  xids : List XidEvent := []
  restarts : List RestartObs := []
  runningRoles : List String := []
  /-- decode speed of a valid idle probe that completed since the last evaluation -/
  probeTokS : Option F := none
  probeTs : Option ℤ := none
  testAlerts : List String := []
  benchActive : Bool := false
  probeIntervalSecs : ℤ := 0
  maintenanceActive : Bool := false
  gateShadow : Option GateShadow := none
  ompMismatch : Option (String × String) := none
  disk : Option DiskObs := none

end Lss.Model
