import Mathlib.Data.List.Sort
import Lss.Library.Tally
import Lss.Model.GatewayRead

/-!
# The gateway table

One row for each lane, each key and each address of a range. The collector's own probes went
through the gateway too: they are taken out of the trusted lane before its rows are made, out of
maps that were filled one by one.
-/

set_option autoImplicit false

namespace Lss.Model

open Lss.Library (Tally.total)

/-- The version of the documents.
SOURCE: lss-core/src/lib.rs:41 -/
def statusSchemaVersion : ℕ := 1

/-! ## A row -/

/-- The average of the estimated tokens.
SOURCE: lss-core/src/gatelog.rs:245-247 -/
def EstTokens.avg (t : EstTokens) : Option ℚ := if 0 < t.n then some (t.sum / t.n) else none

/-- One row: a lane, a key or an address. A column without a value is not known, which is not
zero.
SOURCE: lss-core/src/series.rs:589-621 -/
structure GatewayRow where
  name : String := ""
  lane : String := ""
  requests : ℕ := 0
  codedRequests : ℕ := 0
  c2xx : Option ℕ := none
  c4xx : Option ℕ := none
  c5xx : Option ℕ := none
  s413 : Option ℕ := none
  s429 : Option ℕ := none
  s499 : Option ℕ := none
  s503 : Option ℕ := none
  estTokensN : ℕ := 0
  estTokensAvg : Option ℚ := none
  estTokensMax : Option ℚ := none

namespace GatewayRow

/-- The requests whose status is of a class.
SOURCE: lss-core/src/series.rs:625 -/
def classCount (codes : Std.ExtTreeMap ℕ ℕ) (c : ℕ) : ℕ :=
  ((codes.toList.filter fun e => e.1 / 100 = c).map Prod.snd).sum

/-- A row with a breakdown.
SOURCE: lss-core/src/series.rs:624-644 -/
def fromCodes (name lane : String) (codes : Std.ExtTreeMap ℕ ℕ) (est : EstTokens) : GatewayRow :=
  let one := fun c => (codes[c]?).getD 0
  let total := Tally.total id codes
  { name := name
    lane := lane
    requests := total
    codedRequests := total
    c2xx := some (classCount codes 2)
    c4xx := some (classCount codes 4)
    c5xx := some (classCount codes 5)
    s413 := some (one 413)
    s429 := some (one 429)
    s499 := some (one 499)
    s503 := some (one 503)
    estTokensN := est.n
    estTokensAvg := est.avg.map fun avg => roundHalfAway avg
    estTokensMax := if 0 < est.n then some est.max else none }

/-- A row whose breakdown is not known.
SOURCE: lss-core/src/series.rs:647-649 -/
def uncoded (name lane : String) (requests : ℕ) : GatewayRow :=
  { name := name, lane := lane, requests := requests }

/-- Busiest first, then by name.
SOURCE: lss-core/src/series.rs:772 -/
def busiest (a b : GatewayRow) : Prop :=
  b.requests < a.requests ∨ b.requests = a.requests ∧ a.name ≤ b.name

instance : DecidableRel busiest := fun _ _ => inferInstanceAs (Decidable (_ ∨ _ ∧ _))

end GatewayRow

/-! ## The collector's own probes -/

/-- Whether a moment has codes by key.
SOURCE: lss-core/src/series.rs:691-693 -/
def CodeCoverage.covers (c : CodeCoverage) (ts : ℤ) : Bool :=
  !c.gap || c.since.any fun s => s ≤ ts

/-- SOURCE: lss-core/src/series.rs:718 -/
def noKey : String := "(no key)"

/-- A subtraction of unsigned numbers, which must not go below zero. -/
def checkedSub (a b : ℕ) : Option ℕ := if b ≤ a then some (a - b) else none

/-- Takes one probe out of the trusted lane, unless the log does not hold it. The second part of
the result counts those taken out.
SOURCE: lss-core/src/series.rs:726-745 -/
def takeProbe (coverage : CodeCoverage) (probeIp : Option String) (acc : LaneLog × ℕ)
    (probe : ℤ × ℕ) : Option (LaneLog × ℕ) :=
  let trusted := acc.1
  match (trusted.byStatus[probe.2]?).filter fun n => 0 < n with
  | none => some acc
  | some n =>
    (checkedSub n 1).map fun left =>
      let trusted := { trusted with
        byStatus := trusted.byStatus.modify probe.2 fun _ => left
        requests := trusted.requests - 1
        byKey := trusted.byKey.modify noKey fun k => k - 1 }
      -- the codes by key and the addresses only hold the probes of the covered part
      if !coverage.covers probe.1 then (trusted, acc.2 + 1)
      else
        ({ trusted with
            byKeyStatus := trusted.byKeyStatus.modify noKey fun codes =>
              codes.modify probe.2 fun k => k - 1
            byIp := probeIp.elim trusted.byIp fun ip => trusted.byIp.modify ip fun n => n - 1 },
         acc.2 + 1)

/-- Takes the probes out one by one. -/
def takeProbes (coverage : CodeCoverage) (probeIp : Option String) (acc : LaneLog × ℕ)
    (probes : List (ℤ × ℕ)) : Option (LaneLog × ℕ) :=
  probes.foldlM (takeProbe coverage probeIp) acc

/-! ## The tables -/

/-- The row of one key: what is known of its codes, and never fewer requests than counted.
SOURCE: lss-core/src/series.rs:753-763 -/
def keyRow (full : Bool) (lane : String) (l : LaneLog) (key : String) (n : ℕ) : GatewayRow :=
  let est := (l.byKeyEst[key]?).getD {}
  let coded := (l.byKeyStatus[key]?).elim 0 (Tally.total id)
  let unbroken :=
    if !full then GatewayRow.uncoded key lane n else GatewayRow.fromCodes key lane ∅ est
  let row := match l.byKeyStatus[key]? with
    | some codes =>
      if full ∨ 0 < coded then GatewayRow.fromCodes key lane codes est else unbroken
    | none => unbroken
  { row with requests := max row.requests n }

/-- SOURCE: lss-core/src/series.rs:752-768 -/
def keyRows (full : Bool) (lane : String) (l : LaneLog) : List GatewayRow :=
  (l.byKey.toList.map fun e => keyRow full lane l e.1 e.2).filter fun row => 0 < row.requests

/-- SOURCE: lss-core/src/series.rs:768-770 -/
def ipRows (lane : String) (l : LaneLog) : List GatewayRow :=
  (l.byIp.toList.filter fun e => 0 < e.2).map fun e => GatewayRow.uncoded e.1 lane e.2

/-- SOURCE: lss-core/src/series.rs:697-716 -/
structure GatewayDoc where
  v : ℕ
  generatedAt : ℤ
  rangeS : ℤ
  lanes : List GatewayRow
  keys : List GatewayRow
  ips : List GatewayRow
  probesExcluded : ℕ
  codesCoverage : String
  codesSince : Option ℤ

/-- The tables of a range, none where a subtraction went below zero.
SOURCE: lss-core/src/series.rs:723-778 -/
def buildGateway (now rangeS : ℤ) (log : LogDelta) (probes : List (ℤ × ℕ))
    (coverage : CodeCoverage) (probeIp : Option String) : Option GatewayDoc :=
  (takeProbes coverage probeIp (log.trustedLane, 0) probes).map fun taken =>
    let full := coverage.label = "full"
    let lanes := [("public", log.publicLane), ("trusted", taken.1)]
    let keys := lanes.flatMap fun lane => keyRows full lane.1 lane.2
    let ips := lanes.flatMap fun lane => ipRows lane.1 lane.2
    { v := statusSchemaVersion
      generatedAt := now
      rangeS := rangeS
      lanes := lanes.map fun lane => .fromCodes lane.1 lane.1 lane.2.byStatus lane.2.est
      keys := (keys.insertionSort GatewayRow.busiest).take 50
      ips := (ips.insertionSort GatewayRow.busiest).take 20
      probesExcluded := taken.2
      codesCoverage := coverage.label
      codesSince := coverage.codesSince }

end Lss.Model
