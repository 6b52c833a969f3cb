import Lss.Library.Buckets
import Lss.Model.Hist
import Lss.Model.Series

/-!
# The rollup pipeline

Every sample is folded into the one-minute and the ten-minute tier as it arrives, the latency
histograms are cut into windows, and the gateway's log is merged per ten minutes. What a
bucket holds is written to the database when a sample of another bucket arrives. After a
restart the samples stored since the last round ten minutes are replayed, and the buckets that
end during the replay are only written where the database has nothing.
-/

set_option autoImplicit false

namespace Lss.Model

/-- A row of the rollup table.
SOURCE: lss-collector/src/db.rs:352-360 -/
structure RollupRow where
  avg : ℚ
  min : ℚ
  max : ℚ
  n : ℚ
deriving DecidableEq

/-- SOURCE: lss-collector/src/db.rs:357 -/
def Agg.row (a : Agg) : RollupRow := ⟨a.avg, a.min, a.max, a.n⟩

/-- SOURCE: lss-collector/src/db.rs:368 -/
def RollupRow.agg (r : RollupRow) : Agg := Agg.fromRow r.avg r.min r.max r.n

/-- The rollup table: a row for a resolution, a metric and the start of a bucket. -/
abbrev RollupTable := ℤ → String → ℤ → Option RollupRow

/-- Writes a row, over an old one only when `replace`. -/
def RollupTable.write (t : RollupTable) (replace : Bool) (res : ℤ) (name : String) (ts : ℤ)
    (row : RollupRow) : RollupTable := fun res' name' ts' =>
  if res' = res ∧ name' = name ∧ ts' = ts then
    if replace then some row else (t res name ts).or (some row)
  else t res' name' ts'

/-- The database, as far as the pipeline writes it. -/
structure RollupDb where
  rollup : RollupTable := fun _ _ _ => none
  /-- bucket counts of a latency window, by resolution, histogram and start -/
  hist : ℤ → String → ℤ → Option HistAccum := fun _ _ _ => none
  /-- the merged gateway log of ten minutes, by their start -/
  gatelog : ℤ → Option LogDelta := fun _ => none

namespace RollupDb

/-- SOURCE: lss-collector/src/db.rs:352-360 -/
def writeRollup (db : RollupDb) (batch : RollupBatch) (replace : Bool) : RollupDb :=
  let write := fun (t : RollupTable) (r : String × Agg) =>
    t.write replace batch.res r.1 batch.ts r.2.row
  { db with rollup := batch.rows.foldl write db.rollup }

/-- The bucket counts of one closed latency window, where it saw requests.
SOURCE: lss-collector/src/db.rs:394-410 -/
def writeHistWindow (db : RollupDb) (w : ClosedWindow) : RollupDb :=
  let write := fun (t : ℤ → String → ℤ → Option HistAccum) (p : String × HistAccum) =>
    if p.2.isEmpty then t
    else fun res short ts =>
      if res = w.res ∧ short = p.1 ∧ ts = w.ts then some p.2 else t res short ts
  { db with hist := (histMetrics.zip w.accs.toList).foldl write db.hist }

/-- SOURCE: lss-collector/src/db.rs:432-439 -/
def writeGatelog (db : RollupDb) (ts : ℤ) (log : LogDelta) (replace : Bool) : RollupDb :=
  if log.isEmpty then db
  else { db with gatelog := fun t =>
    if t = ts then if replace then some log else (db.gatelog ts).or (some log)
    else db.gatelog t }

end RollupDb

/-- The percentile series of a closed latency window.
SOURCE: lss-collector/src/rollup.rs:25-27 -/
def latencyBatch (w : ClosedWindow) : RollupBatch :=
  ⟨w.res, w.ts, w.points.map fun p => (p.1, Agg.fromRow p.2.1 p.2.1 p.2.1 p.2.2)⟩

/-- SOURCE: lss-collector/src/rollup.rs:11-23 -/
structure Pipeline where
  m1 : Roller := { res := res1m }
  m10 : Roller := { res := res10m }
  latency : LatencyTracker := {}
  gate : Option (ℤ × LogDelta) := none
  prev : Option Sample := none

/-- Writes a bucket that a roller handed out.
SOURCE: lss-collector/src/rollup.rs:43-45 -/
def writeBatch (db : RollupDb) (batch : Option RollupBatch) (replace : Bool) : RollupDb :=
  batch.elim db fun b => db.writeRollup b replace

/-- Writes a latency window that ended: its counts and its series.
SOURCE: lss-collector/src/rollup.rs:48-51 -/
def writeWindow (db : RollupDb) (w : ClosedWindow) : RollupDb :=
  (db.writeHistWindow w).writeRollup (latencyBatch w) true

/-- The gateway log of one more sample: the ten minutes before are written when they ended.
SOURCE: lss-collector/src/rollup.rs:52-58 -/
def gateStep (gate : Option (ℤ × LogDelta)) (db : RollupDb) (s : Sample) (replace : Bool) :
    Option (ℤ × LogDelta) × RollupDb :=
  let start := Library.Buckets.bucket res10m s.ts
  match gate with
  | none => (some (start, ({} : LogDelta).merge s.log), db)
  | some (t, log) =>
    if t = start then (some (t, log.merge s.log), db)
    else (some (start, ({} : LogDelta).merge s.log), db.writeGatelog t log replace)

/-- One sample. The buckets that end are written over what is there when `replace`.
SOURCE: lss-collector/src/rollup.rs:38-61 -/
def Pipeline.push (p : Pipeline) (db : RollupDb) (s : Sample) (hists : Option HistSet)
    (replace : Bool) : Pipeline × RollupDb :=
  let points := samplePoints p.prev s
  let m1 := p.m1.add s.ts points
  let m10 := p.m10.add s.ts points
  let latency := p.latency.observe s.ts hists
  let db := writeBatch (writeBatch db m1.2 replace) m10.2 replace
  let db := latency.2.foldl writeWindow db
  let gate := gateStep p.gate db s replace
  (⟨m1.1, m10.1, latency.1, gate.1, some s⟩, gate.2)

/-- A sample on its way into the pipeline: the histograms scraped with it, and whether what it
ends is written over what is there. -/
structure Feed where
  sample : Sample
  hists : Option HistSet := none
  replace : Bool := true

/-- Pushes samples one after the other. -/
def Pipeline.pushAll (p : Pipeline) (db : RollupDb) (feeds : List Feed) : Pipeline × RollupDb :=
  feeds.foldl (fun s f => s.1.push s.2 f.sample f.hists f.replace) (p, db)

/-- Replays samples that are already stored.
SOURCE: lss-collector/src/rollup.rs:29-37 -/
def Pipeline.replay (p : Pipeline) (db : RollupDb) (samples : List Sample) : Pipeline × RollupDb :=
  p.pushAll db (samples.map fun s => { sample := s, replace := false })

end Lss.Model
