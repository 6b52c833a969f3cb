import Lss.Model.XidScan

/-!
# The back-fill of fault reports over restarts

Two marks are kept in the database: the time up to which the hot path has read, and the time from
which a start owes a back-fill. A start reads from the second, or else from the first, and never
more than seven days back; the mark of the debt goes when that back-fill is complete.
-/

set_option autoImplicit false

namespace Lss.Model

/-- As far back as a start reads. -/
def backfillReach : ℤ := 7 * 86400

/-- What the database keeps.
SOURCE: lss-collector/src/main.rs:147-148 -/
structure XidStore where
  incidents : List IncidentRow := []
  /-- `KV_XID_SCAN_UNTIL` -/
  scanUntil : Option ℤ := none
  /-- `KV_XID_BACKFILL_FROM` -/
  backfillFrom : Option ℤ := none

/-- A back-fill in flight. The one of a start has no end. -/
structure Backfill where
  since : ℤ
  stop : Option ℤ
  startup : Bool
  /-- when its thread was started -/
  spawned : ℤ
deriving DecidableEq

/-- What one run of the collector has in memory. -/
structure CollectorRun where
  startedAt : ℤ
  /-- whether there is a journal to read and a GPU that reports to it -/
  scan : Bool
  poller : XidPoller
  lastScanMark : ℤ := 0
  backfills : List Backfill := []
  /-- those that said they would be retried on the next start -/
  failed : List Backfill := []

structure XidKeeper where
  store : XidStore := {}
  /-- none while the collector is not running -/
  run : Option CollectorRun := none

/-- What happens to a collector. -/
inductive XidRunEvent where
  | start (now : ℤ) (scan : Bool)
  /-- a round of the poll loop -/
  | poll (p : XidPoll)
  /-- a back-fill that completed, with its own reading of the addresses and the lines it was given -/
  | backfilled (b : Backfill) (smi : PciMap) (lines : List String)
  | backfillFailed (b : Backfill)
  /-- the collector stops; a round or a back-fill it cuts off may have booked some reports -/
  | stop (booked : List XidEvent)

/-- Where a start at some time reads from.
SOURCE: lss-collector/src/main.rs:559-562 -/
def XidStore.startsFrom (store : XidStore) (now : ℤ) : ℤ :=
  max ((store.backfillFrom.or store.scanUntil).getD 0) (now - backfillReach)

/-- SOURCE: lss-collector/src/main.rs:549-563, 640-642, lss-collector/src/collect.rs:255-270 -/
def XidStore.start (store : XidStore) (now : ℤ) (scan : Bool) : XidKeeper :=
  let backfillFrom := store.startsFrom now
  { store := { store with backfillFrom := some backfillFrom }
    run := some
      { startedAt := now
        scan := scan
        poller := { xidSince := now }
        backfills := if scan then [⟨backfillFrom, none, true, now⟩] else [] } }

section Line

-- reads the stamp of a line, when it is one
variable (parseIso : String → Option ℤ)

/-- A round of the loop: it reads the journal, starts the back-fill of a gap, books what it read
and moves the mark of the hot path once a minute.
SOURCE: lss-collector/src/collect.rs:345-351, lss-collector/src/main.rs:739, 774-780, 830-866,
954-957 -/
def CollectorRun.poll (r : CollectorRun) (store : XidStore) (p : XidPoll) : XidKeeper :=
  let read := if r.scan then p.read else none
  let polled := r.poller.poll parseIso { p with read := read }
  let gaps := polled.2.journalGap.toList.map fun gap => ⟨gap.1, some gap.2, false, p.now⟩
  let marks : Bool := read.isSome && decide (60 ≤ p.now - r.lastScanMark)
  { store :=
      { store with
        incidents := bookXids store.incidents (polled.2.xids.map Prod.snd)
        scanUntil := if marks then some p.now else store.scanUntil }
    run := some
      { r with
        poller := polled.1
        lastScanMark := if marks then p.now else r.lastScanMark
        backfills := r.backfills ++ gaps } }

/-- A back-fill that read its stretch to the end.
SOURCE: lss-collector/src/main.rs:1384-1418 -/
def CollectorRun.backfilled (r : CollectorRun) (store : XidStore) (b : Backfill) (smi : PciMap)
    (lines : List String) : XidKeeper :=
  { store :=
      { store with
        incidents := bookXids store.incidents (backfillXids parseIso smi lines)
        backfillFrom := if b.startup then none else store.backfillFrom }
    run := some { r with backfills := r.backfills.erase b } }

/-- A back-fill that could not: it says that it will be retried on the next start, and returns.
SOURCE: lss-collector/src/main.rs:1377-1383 -/
def CollectorRun.backfillFailed (r : CollectorRun) (store : XidStore) (b : Backfill) :
    XidKeeper :=
  { store := store
    run := some { r with backfills := r.backfills.erase b, failed := r.failed ++ [b] } }

def XidKeeper.step (st : XidKeeper) (event : XidRunEvent) : XidKeeper :=
  match st.run, event with
  | none, .start now scan => st.store.start now scan
  | some r, .poll p => r.poll parseIso st.store p
  | some r, .backfilled b smi lines =>
    if b ∈ r.backfills then r.backfilled parseIso st.store b smi lines else st
  | some r, .backfillFailed b => if b ∈ r.backfills then r.backfillFailed st.store b else st
  | some _, .stop booked =>
    { store := { st.store with incidents := bookXids st.store.incidents booked }, run := none }
  | _, _ => st

end Line

end Lss.Model
