import Mathlib.Data.List.Sort
import Lss.Model.GatewayTable
import Lss.Model.History
import Lss.Model.ProbeEvidence

/-!
# The lanes of a status

A lane of the gateway as a status shows it: what its log adds up to over ten minutes and over the
hour, and the keys that sent most. The collector's own probes go through the trusted lane and are
taken out of it again.
-/

set_option autoImplicit false

namespace Lss.Model.Lanes

/-- SOURCE: lss-core/src/model.rs:595-602 -/
structure CodeClasses where
  c2xx : ℕ := 0
  c4xx : ℕ := 0
  c5xx : ℕ := 0
deriving DecidableEq

/-- SOURCE: lss-core/src/model.rs:606-609 -/
structure KeyCount where
  key : String
  count : ℕ
deriving DecidableEq

/-- SOURCE: lss-core/src/model.rs:584-591 -/
structure LaneProbes where
  admitted : ℕ := 0
  requests10m : ℕ := 0
  requests60m : ℕ := 0
deriving DecidableEq

/-- SOURCE: lss-core/src/model.rs:558-579 -/
structure LaneStatus where
  running : ℚ := 0
  queued : ℚ := 0
  inflightTokens : ℕ := 0
  waiters : ℕ := 0
  admitted : ℕ := 0
  rejected413 : ℕ := 0
  rejected429 : ℕ := 0
  clientClosed : ℕ := 0
  upstreamDown : ℕ := 0
  maxDuration : ℕ := 0
  requests10m : ℕ := 0
  codes10m : CodeClasses := {}
  topKeys60m : List KeyCount := []
  probes : LaneProbes := {}
  budgetTokens : Option ℕ := none
  maxPromptTokens : Option ℕ := none
deriving DecidableEq

/-- Busiest first, then by key.
SOURCE: lss-core/src/history.rs:452 -/
def KeyCount.busiest (a b : KeyCount) : Prop :=
  b.count < a.count ∨ b.count = a.count ∧ a.key ≤ b.key

instance : DecidableRel KeyCount.busiest := fun _ _ => inferInstanceAs (Decidable (_ ∨ _ ∧ _))

/-! ## A lane -/

/-- The answers of a log that are 2xx, 4xx and 5xx.
SOURCE: lss-core/src/gatelog.rs:354-366 -/
def classes (l : LaneLog) : CodeClasses where
  c2xx := GatewayRow.classCount l.byStatus 2
  c4xx := GatewayRow.classCount l.byStatus 4
  c5xx := GatewayRow.classCount l.byStatus 5

/-- SOURCE: lss-core/src/history.rs:84-90 -/
def laneLog (h : History) (since : ℤ) (pick : Sample → LaneLog) : LaneLog :=
  (h.filter fun s => since < s.ts).foldl (fun acc s => acc.merge (pick s)) {}

/-- The keys of a log, the busiest first. -/
def rankedKeys (l : LaneLog) : List KeyCount :=
  (l.byKey.toList.map fun e => ⟨e.1, e.2⟩).insertionSort KeyCount.busiest

/-- SOURCE: lss-core/src/history.rs:574-601 -/
def laneStatus (h : History) (now : ℤ) (running queued : ℚ) (adm : Option LaneAdmission)
    (pick : Sample → LaneLog) : LaneStatus :=
  let adm := adm.getD {}
  let ten := laneLog h (now - rateWindowSecs) pick
  let hour := laneLog h (now - historySecs) pick
  { running := running
    queued := queued
    inflightTokens := adm.inflightTokens
    waiters := adm.waiters
    admitted := adm.admitted
    rejected413 := adm.rejected413
    rejected429 := adm.rejected429
    clientClosed := adm.clientClosed
    upstreamDown := adm.upstreamDown
    maxDuration := adm.maxDuration
    requests10m := ten.requests
    codes10m := classes ten
    -- one spare: the probe may empty the row without a key
    topKeys60m := (rankedKeys hour).take 6
    budgetTokens := adm.budgetTokens
    maxPromptTokens := adm.maxPromptTokens }

/-! ## The collector's own probes -/

/-- Whether a probe was sent in a span that ends now. -/
def inSpan (now span : ℤ) (p : ProbeRecord) : Prop := now - span < p.ts ∧ p.ts ≤ now

instance (now span : ℤ) : DecidablePred (inSpan now span) :=
  fun _ => inferInstanceAs (Decidable (_ ∧ _))

/-- Takes one answer out of its class, where there is one.
SOURCE: lss-core/src/history.rs:434-440 -/
def CodeClasses.lower (c : CodeClasses) (code : ℕ) : CodeClasses :=
  match code / 100 with
  | 2 => { c with c2xx := c.c2xx - 1 }
  | 4 => { c with c4xx := c.c4xx - 1 }
  | 5 => { c with c5xx := c.c5xx - 1 }
  | _ => c

/-- SOURCE: lss-core/src/history.rs:427-442 -/
def countProbe (now : ℤ) (acc : CodeClasses × LaneProbes) (p : ProbeRecord) :
    CodeClasses × LaneProbes :=
  match p.gateLoggedStatus with
  | none => acc
  | some code =>
    let share :=
      if inSpan now historySecs p then { acc.2 with requests60m := acc.2.requests60m + 1 }
      else acc.2
    if inSpan now rateWindowSecs p then
      (acc.1.lower code, { share with requests10m := share.requests10m + 1 })
    else (acc.1, share)

/-- Takes so many requests out of the first row without a key. The first part of the result is how
many there were.
SOURCE: lss-core/src/history.rs:448-453 -/
def lowerNoKey (asked : ℕ) : List KeyCount → Option (ℕ × List KeyCount)
  | [] => some (0, [])
  | row :: rows =>
    if row.key = noKey then
      let taken := min asked row.count
      (checkedSub row.count taken).map fun count => (taken, { row with count := count } :: rows)
    else (lowerNoKey asked rows).map fun r => (r.1, row :: r.2)

/-- Takes the collector's own probe requests out of a lane. There is no result where a subtraction
of unsigned numbers goes below zero.
SOURCE: lss-core/src/history.rs:421-454 -/
def subtractProbes (lane : LaneStatus) (probes : List ProbeRecord) (now : ℤ)
    (admittedSinceGateStart : ℕ) : Option LaneStatus := do
  let counted := probes.foldl (countProbe now)
    (lane.codes10m, { admitted := min admittedSinceGateStart lane.admitted })
  -- never subtract more than is there
  let taken10m := min counted.2.requests10m lane.requests10m
  let requests ← checkedSub lane.requests10m taken10m
  let admitted ← checkedSub lane.admitted counted.2.admitted
  let (taken60m, rows) ← lowerNoKey counted.2.requests60m lane.topKeys60m
  pure { lane with
    requests10m := requests
    admitted := admitted
    codes10m := counted.1
    topKeys60m := (rows.filter fun k => 0 < k.count).insertionSort KeyCount.busiest
    probes := { counted.2 with requests10m := taken10m, requests60m := taken60m } }

/-- The trusted lane as the status shows it.
SOURCE: lss-core/src/history.rs:603-607 -/
def trustedLane (h : History) (now : ℤ) (running queued : ℚ) (adm : Option LaneAdmission)
    (probes : List ProbeRecord) (admittedSinceGateStart : ℕ) : Option LaneStatus :=
  (subtractProbes (laneStatus h now running queued adm fun s => s.log.trustedLane) probes now
    admittedSinceGateStart).map fun lane => { lane with topKeys60m := lane.topKeys60m.take 5 }

end Lss.Model.Lanes
