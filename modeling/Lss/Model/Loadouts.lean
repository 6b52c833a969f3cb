import Mathlib.Data.List.Sort
import Lss.Model.Cost
import Lss.Model.LoadoutAcc

/-!
# The loadout that serves

The collector follows which container run, or which plain process, serves which model. When
another one shows up it asks what it is; a loadout it has never seen starts from what the
database already holds about its run, one it knows goes on where it was.
-/

set_option autoImplicit false

namespace Lss.Model

/-- SOURCE: lss-collector/src/loadouts.rs:15 -/
def saveEverySecs : ℤ := 60

/-- What an engine says that has no model loaded.
SOURCE: lss-core/src/engine.rs:384 -/
def noModel : String := "(no model loaded)"

/-- SOURCE: lss-core/src/loadout.rs:53-63 -/
structure LoadoutIdentity where
  id : String
  model : String := ""
  image : String := ""
  argsHash : String := ""
  flags : String := ""
deriving DecidableEq

/-- A run: the container, when it started, and the model it serves. A plain process has no name
and started at nought. -/
structure Seen where
  name : String
  startedAt : ℤ
  model : String
deriving DecidableEq

/-- What serves in a sample, once it is up and answers.
SOURCE: lss-collector/src/loadouts.rs:96-102 -/
def seenAs (s : Sample) : Option Seen :=
  (s.model.filter fun m => s.serveUp && m != noModel).map fun model =>
    match s.serveCt.filter fun c => c.running && 0 < c.startedAt with
    | some ct => ⟨ct.name, ct.startedAt, model⟩
    | none => ⟨"", 0, model⟩

/-! ## What is stored -/

/-- The recorded samples, probes and one-minute latency windows, each in order of time. -/
structure StoredRecords where
  samples : List Sample := []
  probes : List ProbeRecord := []
  /-- the windows of a histogram, by their starts -/
  minutes : String → List (ℤ × HistAccum) := fun _ => []

namespace StoredRecords

/-- SOURCE: lss-collector/src/db.rs:462-466 -/
def probesBetween (db : StoredRecords) (start stop : ℤ) : List ProbeRecord :=
  db.probes.filter fun p => start ≤ p.ts ∧ p.ts < stop

/-- SOURCE: lss-collector/src/db.rs:413-429 -/
def histRows (db : StoredRecords) (metric : String) (start stop : ℤ) : List (ℤ × HistAccum) :=
  (db.minutes metric).filter fun w => start ≤ w.1 ∧ w.1 < stop

end StoredRecords

/-- A stored loadout.
SOURCE: lss-collector/src/db.rs:717-729 -/
structure LoadoutRow where
  identity : LoadoutIdentity
  acc : LoadoutAcc
  firstSeen : ℤ
  lastSeen : ℤ

abbrev LoadoutTable := List LoadoutRow

namespace LoadoutTable

/-- A loadout that is stored keeps its identity and when it was first seen.
SOURCE: lss-collector/src/db.rs:717-724 -/
def save (table : LoadoutTable) (id : LoadoutIdentity) (acc : LoadoutAcc) (firstSeen : ℤ) :
    LoadoutTable :=
  let lastSeen := max acc.lastTs firstSeen
  if table.any fun r => r.identity.id = id.id then
    table.map fun r => if r.identity.id = id.id then { r with acc := acc, lastSeen := lastSeen } else r
  else table ++ [{ identity := id, acc := acc, firstSeen := firstSeen, lastSeen := lastSeen }]

/-- SOURCE: lss-collector/src/db.rs:726-729 -/
def load (table : LoadoutTable) (id : String) : Option (LoadoutAcc × ℤ) :=
  (table.find? fun r => r.identity.id = id).map fun r => (r.acc, r.firstSeen)

/-- The newest loadouts, the newest first.
SOURCE: lss-collector/src/db.rs:732-736 -/
def recent (table : LoadoutTable) (limit : ℕ) : List LoadoutRow :=
  (table.insertionSort fun a b =>
    b.lastSeen < a.lastSeen ∨ (b.lastSeen = a.lastSeen ∧ b.firstSeen ≤ a.firstSeen)).take limit

end LoadoutTable

/-! ## The back-fill -/

/-- One stored sample, after the one before it.
SOURCE: lss-collector/src/loadouts.rs:237-241 -/
def backfillSample (state : LoadoutAcc × Option Sample) (s : Sample) : LoadoutAcc × Option Sample :=
  let acc := { state.1 with slots := max state.1.slots s.slots }
  (acc.observe state.2 s, some s)

/-- The histograms a loadout keeps, with their places in a window.
SOURCE: lss-collector/src/loadouts.rs:245 -/
def loadoutHists : List (String × Fin 6) :=
  [("ttft", 0), ("itl", 2), ("prompt_tokens", 4), ("gen_tokens", 5)]

/-- SOURCE: lss-collector/src/loadouts.rs:247-250 -/
def backfillWindow (slot : Fin 6) (acc : LoadoutAcc) (w : ℤ × HistAccum) : LoadoutAcc :=
  acc.observeWindow { res := 60, ts := w.1, accs := (Vector.replicate 6 {}).setIfInBounds slot w.2 }

/-- What is stored from `start` on, before `now`.
SOURCE: lss-collector/src/loadouts.rs:232-252 -/
def backfill (db : StoredRecords) (start now : ℤ) : LoadoutAcc :=
  let acc := ((samplesBetween db.samples start now).foldl backfillSample ({}, none)).1
  let acc := (db.probesBetween start now).foldl LoadoutAcc.observeProbe acc
  loadoutHists.foldl (fun acc hist =>
    (db.histRows hist.1 start now).foldl (backfillWindow hist.2) acc) acc

/-! ## The loadouts of the collector -/

/-- SOURCE: lss-collector/src/loadouts.rs:19-25 -/
structure Current where
  id : LoadoutIdentity
  acc : LoadoutAcc
  firstSeen : ℤ
  /-- the run this identity was read for -/
  seenAs : Seen

/-- SOURCE: lss-collector/src/loadouts.rs:27-42 -/
structure Loadouts where
  current : Option Current := none
  savedAt : ℤ := 0
  prev : Option Sample := none
  /-- the newest poll in which the engine did not answer -/
  lastDownTs : Option ℤ := none

/-- One poll: its sample, what the database holds then, and what a name is identified as. The
empty name asks an engine without a container to describe itself. -/
structure Poll where
  sample : Sample
  records : StoredRecords
  identify : String → Option LoadoutIdentity

namespace Loadouts

/-- How long the start took, when the collector saw the engine down since.
SOURCE: lss-collector/src/loadouts.rs:137 -/
def coldStart (l : Loadouts) (startedAt now : ℤ) : Option ℚ :=
  (l.lastDownTs.filter fun d => startedAt ≤ d ∧ now - d ≤ 60).map fun _ => ((now - startedAt : ℤ) : ℚ)

/-- SOURCE: lss-collector/src/loadouts.rs:139-142, 170-174 -/
def startRun (acc : LoadoutAcc) (startedAt : ℤ) (coldStart : Option ℚ) : LoadoutAcc :=
  let acc := acc.noteRun startedAt
  match coldStart with
  | some secs => acc.noteColdStart secs
  | none => acc

/-- What a loadout starts from: its stored accumulator, or what is stored about the run.
SOURCE: lss-collector/src/loadouts.rs:152-169 -/
def startAcc (table : LoadoutTable) (records : StoredRecords) (id : LoadoutIdentity)
    (startedAt now : ℤ) : LoadoutAcc × ℤ :=
  match table.load id.id with
  | some found => found
  | none =>
    let acc := backfill records startedAt now
    (acc, if 0 < acc.samples ∧ 0 < startedAt then min startedAt now else now)

/-- SOURCE: lss-collector/src/loadouts.rs:133-182 -/
def switchTo (l : Loadouts) (table : LoadoutTable) (records : StoredRecords)
    (id : LoadoutIdentity) (seen : Seen) (now : ℤ) : Loadouts × LoadoutTable :=
  let cold := l.coldStart seen.startedAt now
  match l.current.filter fun c => c.id.id = id.id with
  | some cur =>
    -- the same configuration again is one more run of the same loadout
    ({ l with
        current := some { cur with acc := startRun cur.acc seen.startedAt cold, seenAs := seen }
        prev := none }, table)
  | none =>
    let table :=
      match l.current with
      | some old => table.save old.id old.acc old.firstSeen
      | none => table
    let found := startAcc table records id seen.startedAt now
    let acc := startRun found.1 seen.startedAt cold
    ({ l with
        current := some { id := id, acc := acc, firstSeen := found.2, seenAs := seen }
        savedAt := now
        prev := none }, table.save id acc found.2)

/-- Another run than the one that is known.
SOURCE: lss-collector/src/loadouts.rs:111-112 -/
def isOther (l : Loadouts) (seen : Seen) : Bool := l.current.all fun c => c.seenAs != seen

/-- SOURCE: lss-collector/src/loadouts.rs:111-119 -/
def follow (l : Loadouts) (table : LoadoutTable) (p : Poll) : Loadouts × LoadoutTable :=
  match seenAs p.sample with
  | none => (l, table)
  | some seen =>
    if l.isOther seen then
      match p.identify seen.name with
      | some id => l.switchTo table p.records id seen p.sample.ts
      | none => (l, table)
    else (l, table)

/-- SOURCE: lss-collector/src/loadouts.rs:120-129 -/
def addSample (l : Loadouts) (table : LoadoutTable) (s : Sample) : Loadouts × LoadoutTable :=
  match l.current with
  | none => (l, table)
  | some c =>
    let acc := { c.acc with slots := max c.acc.slots s.slots }.observe l.prev s
    let l := { l with current := some { c with acc := acc } }
    if saveEverySecs ≤ s.ts - l.savedAt then
      ({ l with savedAt := s.ts }, table.save c.id acc c.firstSeen)
    else (l, table)

/-- One poll.
SOURCE: lss-collector/src/loadouts.rs:107-131 -/
def onSample (st : Loadouts × LoadoutTable) (p : Poll) : Loadouts × LoadoutTable :=
  let l := if p.sample.serveUp then st.1 else { st.1 with lastDownTs := some p.sample.ts }
  let followed := l.follow st.2 p
  let added := followed.1.addSample followed.2 p.sample
  ({ added.1 with prev := some p.sample }, added.2)

/-- SOURCE: lss-collector/src/loadouts.rs:184-188 -/
def onProbe (l : Loadouts) (p : ProbeRecord) : Loadouts :=
  { l with current := l.current.map fun c => { c with acc := c.acc.observeProbe p } }

/-- SOURCE: lss-collector/src/loadouts.rs:190-194 -/
def onWindow (l : Loadouts) (w : ClosedWindow) : Loadouts :=
  { l with current := l.current.map fun c => { c with acc := c.acc.observeWindow w } }

end Loadouts

/-- What the loadouts of the collector see. -/
inductive LoadoutEvent where
  | poll (p : Poll)
  | probe (p : ProbeRecord)
  | window (w : ClosedWindow)
  /-- the collector starts again, with what is stored -/
  | restart

/-- SOURCE: lss-collector/src/main.rs:973-1037 -/
def Loadouts.step (st : Loadouts × LoadoutTable) : LoadoutEvent → Loadouts × LoadoutTable
  | .poll p => Loadouts.onSample st p
  | .probe p => (st.1.onProbe p, st.2)
  | .window w => (st.1.onWindow w, st.2)
  | .restart => ({}, st.2)

def Loadouts.run (st : Loadouts × LoadoutTable) (events : List LoadoutEvent) :
    Loadouts × LoadoutTable :=
  events.foldl Loadouts.step st

end Lss.Model
