import Mathlib.Data.Int.Basic
import Mathlib.Logic.Function.Basic
import Mathlib.Algebra.Group.Nat.Defs

/-!
# Starting a benchmark

A benchmark is started by looking whether one is active, taking a lock file and recording the
run. The lock file is created, written, read and removed in separate steps, between which
other callers take theirs: other requests of the same collector, or a second collector on the
same state directory.
-/

set_option autoImplicit false

namespace Lss.Model

/-- What can be read in a lock file; nothing before it is written.
SOURCE: lss-collector/src/bench_run.rs:133, 137-140 -/
structure Held where
  pid : Option ℤ := none
  profile : Option String := none
  startedAt : Option ℤ := none
deriving DecidableEq

/-- Who created a lock file: one of the callers, or somebody before them. -/
inductive Owner (ι : Type) where
  | before
  | caller (i : ι)
deriving DecidableEq

/-- A lock file: who created it, and what it says. -/
structure LockFile (ι : Type) where
  owner : Owner ι
  held : Held := {}

/-- A caller that asks for a benchmark: its process, what it asks for, what the checks before
the lock say, and what goes wrong with its files. -/
structure BenchCaller where
  pid : ℤ
  profile : String
  now : ℤ
  /-- the idle gate and the checks of the request -/
  gate : Except String Unit := .ok ()
  /-- why the lock file cannot be created at all -/
  denied : Option String := none
  /-- why the run cannot be recorded -/
  unrecorded : Option String := none

/-- Where a caller stands. -/
inductive Stage (ι : Type) where
  /-- looks whether a run is active -/
  | check
  /-- creates the lock file, after some attempts that failed -/
  | create (attempt : ℕ)
  /-- writes the file it created -/
  | write
  /-- reads the file somebody else created -/
  | read (attempt : ℕ)
  /-- tests the process the file names; `seen` is whose file was read -/
  | test (attempt : ℕ) (held : Held) (seen : Option (Owner ι))
  /-- removes the file as a stale one -/
  | remove (attempt : ℕ) (seen : Option (Owner ι))
  /-- has the lock -/
  | locked
  /-- has started its run -/
  | running
  | refused (message : String)
deriving DecidableEq

/-- What the callers share: the lock file, the profile of the run that a process has active, and
where each of the callers stands. -/
structure BenchWorld (ι : Type) where
  file : Option (LockFile ι)
  active : ℤ → Option String := fun _ => none
  stage : ι → Stage ι := fun _ => .check

/-- A process number as the kernel is asked for it. -/
def asI32 (pid : ℤ) : ℤ := Int.bmod pid (2 ^ 32)

/-- `alive` is the kernel's answer to a signal 0.
SOURCE: lss-collector/src/bench_run.rs:114-122 -/
def pidAlive (alive : ℤ → Bool) (pid : ℤ) : Bool := if pid ≤ 0 then false else alive pid

/-- The process a lock file names.
SOURCE: lss-collector/src/bench_run.rs:138 -/
def Held.pid32 (held : Held) : ℤ := asI32 (held.pid.getD 0)

/-- SOURCE: lss-collector/src/bench_run.rs:199 -/
def activeText (profile : String) : String :=
  "a benchmark is already running (" ++ profile ++
    "): one at a time. `lss bench status` shows it, `lss bench cancel` stops it"

/-- SOURCE: lss-collector/src/bench_run.rs:140 -/
def heldText (held : Held) (now : ℤ) : String :=
  "a benchmark is already running (" ++ held.profile.getD "?" ++ ", started " ++
    toString (now - held.startedAt.getD now) ++ "s ago, pid " ++ toString held.pid32 ++
    "): one at a time. `lss bench status` shows it, `lss bench cancel` stops it"

section

variable {ι : Type} [DecidableEq ι]

/-- A caller goes to another stage. -/
def BenchWorld.goto (w : BenchWorld ι) (i : ι) (s : Stage ι) : BenchWorld ι :=
  { w with stage := Function.update w.stage i s }

/-- The next step of a caller. Stages `create` to `remove` are `take_lock`, the others the parts
of `request_start` before and after it.
SOURCE: lss-collector/src/bench_run.rs:126-153, 195-271 -/
def benchStep (alive : ℤ → Bool) (callers : ι → BenchCaller) (w : BenchWorld ι) (i : ι) :
    BenchWorld ι :=
  let c := callers i
  match w.stage i with
  | .check =>
    match w.active c.pid with
    | some profile => w.goto i (.refused (activeText profile))
    | none =>
      match c.gate with
      | .error why => w.goto i (.refused why)
      | .ok () => w.goto i (.create 0)
  | .create attempt =>
    if 2 ≤ attempt then w.goto i (.refused "cannot take the bench lock")
    else match c.denied with
      | some e => w.goto i (.refused ("cannot create the bench lock: " ++ e))
      | none =>
        match w.file with
        | none => { w with file := some ⟨.caller i, {}⟩ }.goto i .write
        | some _ => w.goto i (.read attempt)
  | .write =>
    -- the text goes to the file that was created, also when it is not at its path any more
    let write := fun f : LockFile ι =>
      if f.owner = .caller i then { f with held := ⟨c.pid, c.profile, c.now⟩ } else f
    { w with file := w.file.map write }.goto i .locked
  | .read attempt =>
    w.goto i (.test attempt ((w.file.map LockFile.held).getD {}) (w.file.map LockFile.owner))
  | .test attempt held seen =>
    if pidAlive alive held.pid32 then
      w.goto i (.refused (heldText held c.now))
    else w.goto i (.remove attempt seen)
  | .remove attempt _ => { w with file := none }.goto i (.create (attempt + 1))
  | .locked =>
    match c.unrecorded with
    | some e => { w with file := none }.goto i (.refused ("cannot record the run: " ++ e))
    | none => { w with active := Function.update w.active c.pid (some c.profile) }.goto i .running
  | .running => w
  | .refused _ => w

/-- The callers take their steps in some order. -/
def benchRun (alive : ℤ → Bool) (callers : ι → BenchCaller) (w : BenchWorld ι) (order : List ι) :
    BenchWorld ι :=
  order.foldl (benchStep alive callers) w

end

end Lss.Model
