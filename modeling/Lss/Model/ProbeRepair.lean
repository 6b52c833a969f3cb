import Lss.Model.Loadouts
import Lss.Model.Rules

/-!
# The repair of burst probes

A reading far above the usual one is an answer that arrived in one piece. When the collector
starts it takes such readings out of the stored probes, and rebuilds the figures of the newest
loadouts from the probes stored since each was first seen.
-/

set_option autoImplicit false

namespace Lss.Model

/-- SOURCE: lss-core/src/probe.rs:99 -/
def burstOverBaseline : ℚ := 2

/-- SOURCE: lss-core/src/probe.rs:84 -/
def invalidBurst : String := "burst"

/-- The stored probes in order of time, those of one time in the order they came. -/
def inOrder (probes : List ProbeRecord) : List ProbeRecord :=
  probes.insertionSort fun a b => a.ts ≤ b.ts

/-- The value of a probe that is a reading.
SOURCE: lss-core/src/loadout.rs:645 -/
def ProbeRecord.reading (p : ProbeRecord) : Option ℚ := if p.isReading then p.decodeTokS else none

/-- The readings the repair looks at.
SOURCE: lss-collector/src/db.rs:482-486 -/
def storedReadings (probes : List ProbeRecord) : List (ℤ × ℚ) :=
  (inOrder probes).filterMap fun p => p.reading.map fun v => (p.ts, v)

/-- The usual reading. -/
def typicalReading (probes : List ProbeRecord) : ℚ := median ((storedReadings probes).map Prod.snd)

/-- The readings far above the usual one.
SOURCE: lss-collector/src/db.rs:487-492 -/
def burstReadings (probes : List ProbeRecord) : List (ℤ × ℚ) :=
  let readings := storedReadings probes
  if readings.length < 8 then []
  else
    let typical := typicalReading probes
    readings.filter fun r => 0 < typical ∧ typical * burstOverBaseline < r.2

/-- Why a reading was taken out.
SOURCE: lss-collector/src/db.rs:494 -/
def burstDetail (typical v : ℚ) : String :=
  fixedDecimals 0 v ++ " tok/s is more than " ++ fixedDecimals 0 burstOverBaseline ++
    "x the usual " ++ fixedDecimals 0 typical ++
    " tok/s: the answer was buffered, not streamed"

/-- Takes the probes of one time out.
SOURCE: lss-collector/src/db.rs:495 -/
def markBurst (typical : ℚ) (probes : List ProbeRecord) (bad : ℤ × ℚ) : List ProbeRecord :=
  probes.map fun p =>
    if p.ts = bad.1 then
      { p with
        valid := false
        invalidReason := some invalidBurst
        detail := burstDetail typical bad.2 }
    else p

/-- The probes from a time on.
SOURCE: lss-collector/src/db.rs:500 -/
def probesFrom (probes : List ProbeRecord) (start : ℤ) : List ProbeRecord :=
  (inOrder probes).filter fun p => start ≤ p.ts

/-- Rebuilds the figures of some stored loadouts.
SOURCE: lss-collector/src/db.rs:499-503 -/
def rebuildLoadouts (probes : List ProbeRecord) (table : LoadoutTable) (rows : List LoadoutRow) :
    LoadoutTable :=
  rows.foldl (fun table r =>
    table.save r.identity (r.acc.rebuildC1 (probesFrom probes r.firstSeen)) r.firstSeen) table

/-- The collector's loadouts with what is stored of them and of the probes. -/
structure ProbeState where
  loadouts : Loadouts := {}
  table : LoadoutTable := []
  /-- in the order they were stored -/
  probes : List ProbeRecord := []

namespace ProbeState

/-- SOURCE: lss-collector/src/db.rs:481-506 -/
def repairBurstProbes (st : ProbeState) : ProbeState :=
  let bad := burstReadings st.probes
  if bad = [] then st
  else
    let probes := bad.foldl (markBurst (typicalReading st.probes)) st.probes
    { st with
      probes := probes
      table := rebuildLoadouts probes st.table (st.table.recent 50) }

/-- One turn of the poll loop: the finished probes are stored, the sample is followed, and the
loadout that serves then takes the probes.
SOURCE: lss-collector/src/main.rs:867-869, 970-990, 1032-1034 -/
def turn (st : ProbeState) (results : List ProbeRecord) (p : Poll) : ProbeState :=
  let probes := st.probes ++ results
  let polled := Loadouts.onSample (st.loadouts, st.table)
    { p with records := { p.records with probes := inOrder probes } }
  { loadouts := results.foldl Loadouts.onProbe polled.1
    table := polled.2
    probes := probes }

end ProbeState

/-- What happens to the collector. -/
inductive ProbeEvent where
  | turn (results : List ProbeRecord) (p : Poll)
  /-- the collector starts again: the stored probes are repaired first -/
  | restart

/-- SOURCE: lss-collector/src/main.rs:409, 461 -/
def ProbeState.step (st : ProbeState) : ProbeEvent → ProbeState
  | .turn results p => st.turn results p
  | .restart => { st.repairBurstProbes with loadouts := {} }

def ProbeState.run (st : ProbeState) (events : List ProbeEvent) : ProbeState :=
  events.foldl ProbeState.step st

end Lss.Model
