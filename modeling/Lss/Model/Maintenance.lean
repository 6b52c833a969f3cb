import Lss.Model.Incidents

/-!
# Planned maintenance

A maintenance window is opened and closed by requests and expires by itself. The poll loop
writes an incident for it: opened in the first tick that finds a window active, closed in the
first that finds none. The window and what the loop saw last live in the collector's memory,
the incident in its database.
-/

set_option autoImplicit false

namespace Lss.Model

/-- SOURCE: lss-core/src/maintenance.rs:13 -/
def defaultMinutes : ℕ := 60

/-- SOURCE: lss-core/src/maintenance.rs:18 -/
def maxMinutes : ℕ := 240

/-- SOURCE: lss-core/src/maintenance.rs:42-47 -/
structure MaintenanceState where
  active : Bool := false
  reason : String := ""
  startedAt : ℤ := 0
  expiresAt : ℤ := 0

/-- SOURCE: lss-core/src/maintenance.rs:30-34 -/
structure MaintenanceReply where
  ok : Bool
  message : String
  expiresAt : ℤ

/-- SOURCE: lss-core/src/maintenance.rs:50-56 -/
def clampMinutes (minutes : ℕ) : ℕ :=
  if minutes = 0 then defaultMinutes else max 1 (min minutes maxMinutes)

namespace MaintenanceState

/-- Starting again while a window is active replaces it.
SOURCE: lss-core/src/maintenance.rs:60-71 -/
def start (state : MaintenanceState) (now : ℤ) (reason : String) (minutes : ℕ) :
    MaintenanceState × MaintenanceReply :=
  let reason := trim reason
  if reason = "" then
    (state, ⟨false, "a reason is required: lss maintenance start \"reason\"", 0⟩)
  else
    let mins := clampMinutes minutes
    let expiresAt := now + mins * 60
    (⟨true, reason, now, expiresAt⟩,
      ⟨true, "maintenance window open: " ++ reason ++ " (auto-expires in " ++ toString mins ++
        "m unless stopped first)", expiresAt⟩)

/-- SOURCE: lss-core/src/maintenance.rs:73-81 -/
def stop (state : MaintenanceState) (now : ℤ) : MaintenanceState × Option MaintenanceReply :=
  if state.active then
    ({}, some ⟨true, "maintenance window closed after " ++ fmtDuration (now - state.startedAt) ++
      ": " ++ state.reason, 0⟩)
  else (state, none)

/-- SOURCE: lss-core/src/maintenance.rs:84-87 -/
def expired (state : MaintenanceState) (now : ℤ) : Bool :=
  state.active && decide (state.expiresAt ≤ now)

end MaintenanceState

/-- The collector, as far as its windows go: what requests and the poll loop have in memory, and
the incidents in the database.
SOURCE: lss-collector/src/main.rs:87-121, 502-504 -/
structure Collector where
  window : MaintenanceState := {}
  maintenanceWasActive : Bool := false
  benchWasActive : Bool := false
  incidents : List IncidentRow := []

/-- What happens to the collector: requests, ticks of the poll loop, which find a benchmark
running or not, and restarts. -/
inductive CollectorEvent where
  | start (now : ℤ) (reason : String) (minutes : ℕ)
  | stop (now : ℤ)
  | tick (now : ℤ) (bench : Option String)
  | restart (now : ℤ)

/-- The incident of a window: written when the window is not as the loop saw it last.
SOURCE: lss-collector/src/main.rs:784-800, 805-822 -/
def bookWindow (rows : List IncidentRow) (kind : IncidentKind) (was is : Bool) (now : ℤ)
    (detail : String) : List IncidentRow :=
  if is = was then rows
  else if is then openIncident rows kind now detail
  else closeIncident rows kind now

/-- SOURCE: lss-collector/src/main.rs:762-822 -/
def Collector.tick (c : Collector) (now : ℤ) (bench : Option String) : Collector :=
  let window := if c.window.expired now then (c.window.stop now).1 else c.window
  let benchDetail := "lss bench " ++ bench.getD "" ++
    " running: the load is the benchmark's; queue and C1 alerts stand down"
  let rows := bookWindow c.incidents .bench c.benchWasActive bench.isSome now benchDetail
  { window := window
    maintenanceWasActive := window.active
    benchWasActive := bench.isSome
    incidents := bookWindow rows .maintenance c.maintenanceWasActive window.active now
      ("planned maintenance: " ++ window.reason) }

/-- A new process: only the database is left, in which the incident of a benchmark is closed.
SOURCE: lss-collector/src/main.rs:502-504, 571-583; lss-collector/src/bench_run.rs:170 -/
def Collector.restart (c : Collector) (now : ℤ) : Collector :=
  { incidents := closeIncident c.incidents .bench now }

def collectorStep (c : Collector) : CollectorEvent → Collector
  | .start now reason minutes => { c with window := (c.window.start now reason minutes).1 }
  | .stop now => { c with window := (c.window.stop now).1 }
  | .tick now bench => c.tick now bench
  | .restart now => c.restart now

/-- The collector after some events, from its first start on an empty database. -/
def collectorRun (events : List CollectorEvent) : Collector := events.foldl collectorStep {}

end Lss.Model
