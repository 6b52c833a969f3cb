import Mathlib.Logic.Function.Basic
import Lss.Library.Machine
import Lss.Model.BenchLock
import Lss.Model.Maintenance

/-!
# The life of a benchmark

A request that has the lock records its run, raises the flag and leaves the rest to a thread of its
own, which puts the end on record, gives the lock back and takes the flag down. The poll loop keeps
an incident open while the flag is up. The collector may die at any moment, and the next one clears
up after it. Between any two steps of one of these, all others may take theirs.
-/

set_option autoImplicit false

namespace Lss.Model.BenchRuns

open Lss.Library Lss.Model

/-! ## Runs on record -/

/-- A scorecard, but for what was measured.
SOURCE: lss-core/src/bench.rs:1043-1091 -/
structure RunCard where
  runId : ℤ := 0
  loadoutId : String
  model : String
  profile : String
  startedAt : ℤ
  endedAt : ℤ := 0
  durationS : ℤ := 0
  status : String := "running"
  aborted : Option String := none
  underLoad : Bool := false
deriving DecidableEq

/-- SOURCE: lss-core/src/bench.rs:1205-1207 -/
def RunCard.complete (c : RunCard) : Bool := c.status = "ok"

/-- A row of `bench_runs`.
SOURCE: lss-collector/src/db.rs:53-54 -/
structure RunRow where
  id : ℤ
  loadoutId : String
  profile : String
  startedAt : ℤ
  endedAt : Option ℤ := none
  status : String := "running"
  card : RunCard
deriving DecidableEq

/-- The rows, and the identifier that the next one gets: none is given twice. -/
structure RunTable where
  rows : List RunRow := []
  nextId : ℤ := 1

namespace RunTable

/-- SOURCE: lss-collector/src/db.rs:739-742 -/
def start (t : RunTable) (card : RunCard) : RunTable :=
  { rows := t.rows ++ [{
      id := t.nextId
      loadoutId := card.loadoutId
      profile := card.profile
      startedAt := card.startedAt
      card := card }]
    nextId := t.nextId + 1 }

/-- What is written at the end of a run, where the row is still there.
SOURCE: lss-collector/src/db.rs:744-747 -/
def finish (t : RunTable) (id : ℤ) (card : RunCard) : RunTable :=
  { t with
    rows := t.rows.map fun r =>
      if r.id = id then { r with endedAt := some card.endedAt, status := card.status, card := card }
      else r }

/-- SOURCE: lss-collector/src/bench_run.rs:166 -/
def staleText : String := "aborted: the collector restarted while the benchmark was running"

/-- The card of a run that a dead collector has left.
SOURCE: lss-collector/src/db.rs:754-759 -/
def staleCard (now : ℤ) (r : RunRow) : RunCard :=
  { r.card with
    runId := r.id
    status := "aborted"
    aborted := some staleText
    endedAt := now
    durationS := max (now - r.card.startedAt) 0 }

/-- SOURCE: lss-collector/src/db.rs:750-763 -/
def closeStale (t : RunTable) (now : ℤ) : RunTable :=
  ((t.rows.filter fun r => r.status = "running").map fun r => (r.id, staleCard now r)).foldl
    (fun t stale => t.finish stale.1 stale.2) t

/-- The newest five hundred are kept.
SOURCE: lss-collector/src/db.rs:325 -/
def prune (t : RunTable) : RunTable :=
  { t with rows := t.rows.filter fun r => t.rows.countP (fun q => decide (r.id < q.id)) < 500 }

end RunTable

/-! ## How runs end -/

/-- SOURCE: lss-collector/src/bench_run.rs:66-71 -/
inductive StepEnd where
  | done
  | aborted (why : String)
  | timeout
  | failed (why : String)

/-- SOURCE: lss-collector/src/bench_run.rs:415 -/
def cancelledText : String := "cancelled by the operator"

/-- Why a run must stop now: the flag of `cancel` comes first, then the deadline, then the requests
of somebody else, which are only looked for where the run is not under load.
SOURCE: lss-collector/src/bench_run.rs:413-429 -/
def mustStop (cancel late underLoad : Bool) (foreign : Option String) : Option StepEnd :=
  if cancel then some (.aborted cancelledText)
  else if late then some .timeout
  else if underLoad then none
  else foreign.map fun why => .aborted ("aborted: " ++ why)

/-- What a run leaves when its steps are over. -/
structure Leavings where
  /-- a decode, prefill or accuracy figure was read -/
  measured : Bool := true
  /-- the help of a dry run names `--concurrency` -/
  usage : Bool := true
  dir : String := ""
  python : String := ""
  harness : String := ""
  timeoutSecs : ℕ := 0

/-- Why steps that are all done come to nothing.
SOURCE: lss-collector/src/bench_run.rs:980-986 -/
def Leavings.fault (l : Leavings) (profile : String) : Option String :=
  if profile ≠ "dry-run" ∧ !l.measured then
    some ("the harness finished but wrote no result this version of lss understands: see " ++ l.dir)
  else if profile = "dry-run" ∧ !l.usage then
    some ("\x60" ++ l.python ++ " " ++ l.harness ++
      " --help\x60 did not print the harness's usage: wrong interpreter, or its dependencies (httpx, rich) are missing. See " ++
      l.dir ++ "/harness.log")
  else none

/-- The status and the reason on the scorecard.
SOURCE: lss-collector/src/bench_run.rs:978-1003 -/
def Leavings.verdict (l : Leavings) (profile : String) : StepEnd → String × Option String
  | .done => ((l.fault profile).elim "ok" fun _ => "failed", l.fault profile)
  | .aborted why => ("aborted", some why)
  | .timeout =>
    ("timeout", some ("timeout after " ++ toString l.timeoutSecs ++ "s (the \x60" ++ profile ++
      "\x60 profile's hard limit): the harness was killed"))
  | .failed why => ("failed", some why)

/-- The card of a run that has ended.
SOURCE: lss-collector/src/bench_run.rs:978-1007 -/
def RunCard.ended (c : RunCard) (l : Leavings) (stop : StepEnd) (now : ℤ) : RunCard :=
  { c with
    status := (l.verdict c.profile stop).1
    aborted := (l.verdict c.profile stop).2
    endedAt := now
    durationS := now - c.startedAt }

/-! ## The collector -/

/-- A request for a benchmark, with what it finds out before it takes the lock. -/
structure RunRequest extends BenchCaller where
  loadoutId : String := ""
  model : String := ""
  underLoad : Bool := false
  steps : ℕ := 0

/-- SOURCE: lss-collector/src/bench_run.rs:224-251 -/
def RunRequest.card (q : RunRequest) : RunCard :=
  { loadoutId := q.loadoutId
    model := q.model
    profile := q.profile
    startedAt := q.now
    underLoad := q.underLoad }

/-- Where the run of a request stands. -/
inductive RunStage where
  /-- there is no run yet -/
  | idle
  /-- it is on record, and the flag is not up -/
  | recorded (card : RunCard)
  | going (card : RunCard)
  /-- it is over, and that is not on record -/
  | ended (card : RunCard)
  /-- the lock is to be given back -/
  | stored (card : RunCard)
  /-- the flag is to be taken down -/
  | released (card : RunCard)
  | over
deriving DecidableEq

/-- The newest run that has finished.
SOURCE: lss-core/src/bench.rs:1437-1453 -/
structure LastRun where
  runId : ℤ
  profile : String
  endedAt : ℤ
  status : String
  aborted : Option String
  model : String

/-- SOURCE: lss-core/src/bench.rs:1456-1458 -/
def LastRun.of (c : RunCard) : LastRun :=
  { runId := c.runId
    profile := c.profile
    endedAt := c.endedAt
    status := c.status
    aborted := c.aborted
    model := c.model }

/-- SOURCE: lss-core/src/bench.rs:1417-1433 -/
structure BenchBrief where
  state : String := "idle"
  profile : Option String := none
  startedAt : Option ℤ := none
  step : Option String := none
  stepIndex : ℕ := 0
  steps : ℕ := 0
  last : Option LastRun := none

/-- The collector, its files and its database. `pid` is none while no collector runs; what requests
there will be is known when one starts.
SOURCE: lss-collector/src/bench_run.rs:36-49 -/
structure World (ι : Type) where
  pid : Option ℤ := none
  requests : ι → RunRequest := fun _ => { pid := 0, profile := "", now := 0 }
  lock : BenchWorld ι
  cancel : Bool := false
  generation : ℕ := 0
  brief : BenchBrief := {}
  run : ι → RunStage := fun _ => .idle
  table : RunTable := {}
  incidents : List IncidentRow := []
  /-- the flag as the poll loop has seen it last -/
  wasActive : Bool := false

/-- What a request is told.
SOURCE: lss-core/src/bench.rs:1524-1538 -/
structure BenchStarted where
  ok : Bool
  runId : Option ℤ := none
  message : String
  underLoad : Bool := false

section

variable {ι : Type}

/-- Is the flag up? -/
def World.active (w : World ι) : Bool := w.pid.any fun p => (w.lock.active p).isSome

/-- The database of a box that has never seen a collector, and a lock file that somebody else may
have left. -/
def start (file : Option Held) : World ι :=
  { lock := { file := file.map fun held => ⟨.before, held⟩ } }

/-- The lock file that a collector leaves when it starts: its own, and those of the dead, are
removed.
SOURCE: lss-collector/src/bench_run.rs:157-164 -/
def recoverFile (alive : ℤ → Bool) (pid : ℤ) (file : Option (LockFile ι)) : Option (LockFile ι) :=
  file.bind fun f =>
    if !pidAlive alive f.held.pid32 || decide (f.held.pid32 = asI32 pid) then none
    else some { f with owner := .before }

/-- The newest run of twenty that has finished and is no dry run.
SOURCE: lss-collector/src/db.rs:766-777; lss-collector/src/main.rs:589-596 -/
def lastFinished (t : RunTable) : Option LastRun :=
  (((t.rows.reverse.take 20).map fun r => { r.card with runId := r.id }).find? fun c =>
    decide (c.status ≠ "running" ∧ c.profile ≠ "dry-run")).map LastRun.of

/-- A collector starts.
SOURCE: lss-collector/src/bench_run.rs:156-171; lss-collector/src/main.rs:502-503, 571-604 -/
def launch (w : World ι) (pid : ℤ) (alive : ℤ → Bool) (now : ℤ) (requests : ι → RunRequest) :
    World ι :=
  let table := w.table.closeStale now
  { pid := some pid
    requests := fun i => { requests i with pid := pid }
    lock := { file := recoverFile alive pid w.lock.file }
    brief := { last := lastFinished table }
    table := table
    incidents := closeIncident w.incidents .bench now }

variable [DecidableEq ι]

/-- SOURCE: lss-collector/src/bench_run.rs:277-282 -/
def startedText (q : RunRequest) (runId : ℤ) : String :=
  "benchmark \x60" ++ q.profile ++ "\x60 started on " ++ q.model ++ " (run " ++ toString runId ++
    "). " ++
    if q.underLoad then
      "It runs to the end WITH whatever else is on the server, and the scorecard records what that was."
    else "It stops by itself if anyone else uses the server."

/-- The next step of a request that has no run yet. One that has the lock and can record its run
does so; every other step is one of the lock's.
SOURCE: lss-collector/src/bench_run.rs:197-258 -/
def lockStep (w : World ι) (alive : ℤ → Bool) (i : ι) : World ι × List BenchStarted :=
  let q := w.requests i
  if w.lock.stage i = .locked ∧ q.unrecorded = none then
    ({ w with
      table := w.table.start q.card
      run := Function.update w.run i (.recorded { q.card with runId := w.table.nextId }) }, [])
  else
    let lock := benchStep alive (fun i => (w.requests i).toBenchCaller) w.lock i
    let answer : List BenchStarted := match w.lock.stage i, lock.stage i with
      | .refused _, _ => []
      | _, .refused message => [{ ok := false, message := message, underLoad := q.underLoad }]
      | _, _ => []
    ({ w with lock := lock }, answer)

/-- The flag is raised and the thread started.
SOURCE: lss-collector/src/bench_run.rs:259-282 -/
def raiseFlag (w : World ι) (alive : ℤ → Bool) (i : ι) (card : RunCard) :
    World ι × List BenchStarted :=
  let q := w.requests i
  ({ w with
    lock := benchStep alive (fun i => (w.requests i).toBenchCaller) w.lock i
    run := Function.update w.run i (.going card)
    cancel := false
    generation := w.generation + 1
    brief := { w.brief with
      state := "running"
      profile := some q.profile
      startedAt := some q.now
      step := none
      stepIndex := 0
      steps := q.steps } },
   [{ ok := true
      runId := some card.runId
      message := startedText q card.runId
      underLoad := q.underLoad }])

/-- The next step of a request.
SOURCE: lss-collector/src/bench_run.rs:176-283 -/
def requestStep (w : World ι) (alive : ℤ → Bool) (i : ι) : World ι × List BenchStarted :=
  match w.run i with
  | .idle => lockStep w alive i
  | .recorded card => raiseFlag w alive i card
  | _ => (w, [])

/-- SOURCE: lss-collector/src/bench_run.rs:286-295 -/
def cancelStep (w : World ι) : World ι × List BenchStarted :=
  if w.active then
    ({ w with cancel := true },
     [{ ok := true, message := "stopping the benchmark: the harness is being killed" }])
  else (w, [{ ok := false, message := "no benchmark is running" }])

/-- A run says which step it is at.
SOURCE: lss-collector/src/bench_run.rs:810-814 -/
def nameStep (w : World ι) (i : ι) (name : String) (index : ℕ) : World ι :=
  match w.run i with
  | .going _ => { w with brief := { w.brief with step := some name, stepIndex := index + 1 } }
  | _ => w

/-- A run is over.
SOURCE: lss-collector/src/bench_run.rs:978-1007 -/
def endRun (w : World ι) (i : ι) (l : Leavings) (stop : StepEnd) (now : ℤ) : World ι :=
  match w.run i with
  | .going card => { w with run := Function.update w.run i (.ended (card.ended l stop now)) }
  | _ => w

/-- The next step of a thread whose run is over: its end is put on record, the lock is given back,
and the flag is taken down.
SOURCE: lss-collector/src/bench_run.rs:297-315 -/
def finishStep (w : World ι) (i : ι) : World ι :=
  match w.run i with
  | .ended card =>
    { w with
      table := w.table.finish card.runId card
      run := Function.update w.run i (.stored card) }
  | .stored card =>
    { w with
      lock := { w.lock with file := none }
      run := Function.update w.run i (.released card) }
  | .released card =>
    { w with
      lock := { w.lock with
        active := w.pid.elim w.lock.active fun p => Function.update w.lock.active p none }
      run := Function.update w.run i .over
      cancel := false
      generation := w.generation + 1
      brief := { w.brief with
        state := "idle"
        profile := none
        startedAt := none
        step := none
        last := if card.profile ≠ "dry-run" ∨ !card.complete then some (LastRun.of card)
          else w.brief.last } }
  | _ => w

/-- SOURCE: lss-collector/src/main.rs:791 -/
def windowText (profile : Option String) : String :=
  "lss bench " ++ profile.getD "" ++
    " running: the load is the benchmark's; queue and C1 alerts stand down"

/-- The poll loop opens and closes the window when the flag has changed.
SOURCE: lss-collector/src/main.rs:785-801 -/
def pollStep (w : World ι) (now : ℤ) : World ι :=
  { w with
    incidents := bookWindow w.incidents .bench w.wasActive w.active now (windowText w.brief.profile)
    wasActive := w.active }

/-- What happens next. -/
inductive Event (ι : Type) where
  | launch (pid : ℤ) (alive : ℤ → Bool) (now : ℤ) (requests : ι → RunRequest)
  | crash
  | request (alive : ℤ → Bool) (i : ι)
  | cancel
  | name (i : ι) (step : String) (index : ℕ)
  /-- a run looks whether it must stop -/
  | watch (i : ι) (late : Bool) (foreign : Option String) (l : Leavings) (now : ℤ)
  /-- the steps of a run are done, or one has failed -/
  | steps (i : ι) (failed : Option String) (l : Leavings) (now : ℤ)
  | finish (i : ι)
  | poll (now : ℤ)
  | prune

/-- One thing happens; what comes with it are the answers to requests. Without a collector only one
can start.
SOURCE: lss-collector/src/bench_run.rs:156-316 -/
def step (w : World ι) (v : Event ι) : World ι × List BenchStarted :=
  match w.pid, v with
  | none, .launch pid alive now requests => (launch w pid alive now requests, [])
  | some _, .crash => ({ w with pid := none }, [])
  | some _, .request alive i => requestStep w alive i
  | some _, .cancel => cancelStep w
  | some _, .name i name index => (nameStep w i name index, [])
  | some _, .watch i late foreign l now =>
    ((mustStop w.cancel late (w.requests i).underLoad foreign).elim w fun stop =>
      endRun w i l stop now, [])
  | some _, .steps i failed l now =>
    (endRun w i l (failed.elim .done .failed) now, [])
  | some _, .finish i => (finishStep w i, [])
  | some _, .poll now => (pollStep w now, [])
  | some _, .prune => ({ w with table := w.table.prune }, [])
  | _, _ => (w, [])

end

end Lss.Model.BenchRuns
