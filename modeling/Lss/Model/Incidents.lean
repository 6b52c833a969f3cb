import Lss.Library.Machine
import Lss.Model.Hist
import Lss.Model.Text

/-!
# Incidents

The tracker turns successive polls into operations that open an incident, close it, or
record an event at one point in time. The operations are applied in order to the table of
incidents, and the share of time the server was up is computed from that table.
-/

set_option autoImplicit false

namespace Lss.Model

open Lss.Library

/-- SOURCE: lss-core/src/incidents.rs:12-27 -/
inductive IncidentKind where
  | serveDown
  | gateDown
  | containerRestart
  | xid
  | bench
  | maintenance
deriving DecidableEq

/-- Consecutive failed polls before a down incident opens.
SOURCE: lss-core/src/incidents.rs:30-31 -/
def missesToOpen : ℕ := 2

/-- SOURCE: lss-core/src/incidents.rs:34-41 -/
structure Incident where
  id : ℤ
  start : ℤ
  /-- `none` while the incident is open -/
  endTs : Option ℤ
  kind : IncidentKind
  detail : String
deriving DecidableEq

/-- SOURCE: lss-core/src/incidents.rs:44-54 -/
inductive IncidentOp where
  | opened (kind : IncidentKind) (start : ℤ) (detail : String)
  /-- closes the open incident of this kind -/
  | closed (kind : IncidentKind) (endTs : ℤ) (durationSecs : ℤ)
  /-- an incident at one point in time, deduplicated by the key when there is one -/
  | event (kind : IncidentKind) (ts : ℤ) (subject : String) (detail : String)
      (key : Option String)

/-- SOURCE: lss-core/src/incidents.rs:57-59 -/
def xidKey (gpuLabel : String) (xid : ℕ) (ts : ℤ) : String :=
  "xid|" ++ gpuLabel ++ "|" ++ toString xid ++ "|" ++ toString ts

/-- The misses of one kind of outage.
SOURCE: lss-core/src/incidents.rs:72-76 -/
structure DownTracker where
  misses : ℕ := 0
  firstMiss : Option ℤ := none
  openSince : Option ℤ := none

/-- The largest count of misses; the count stays there.
SOURCE: lss-core/src/incidents.rs:88 -/
def missesMax : ℕ := 2 ^ 32 - 1

/-- SOURCE: lss-core/src/incidents.rs:79-94 -/
def DownTracker.step (t : DownTracker) (kind : IncidentKind) (now : ℤ) (up : Bool)
    (detail : String) : DownTracker × List IncidentOp :=
  if up then
    ({},
      match t.openSince with
      | some start => [.closed kind now (now - start)]
      | none => [])
  else
    let misses := min (t.misses + 1) missesMax
    let first := t.firstMiss.getD now
    if t.openSince.isNone ∧ missesToOpen ≤ misses then
      (⟨misses, some first, some first⟩, [.opened kind first detail])
    else (⟨misses, some first, t.openSince⟩, [])

/-- The description of a restart, when the container's state is not of the run seen before.
SOURCE: lss-core/src/incidents.rs:151-167 -/
def restartDetail (prev cur : ContainerState) : Option String :=
  if cur.name ≠ prev.name then some (prev.name ++ " replaced by " ++ cur.name)
  else if cur.restartCount ≠ prev.restartCount then
    some (cur.name ++ " RestartCount " ++ toString prev.restartCount ++ " -> " ++
      toString cur.restartCount)
  else if cur.startedAt ≠ prev.startedAt ∧ cur.startedAt ≠ 0 then
    let upFor :=
      if 0 < prev.startedAt ∧ prev.startedAt < cur.startedAt then
        " (previous run lasted " ++ fmtDuration (cur.startedAt - prev.startedAt) ++ ")"
      else ""
    some (cur.name ++ " new StartedAt" ++ upFor)
  else none

/-- SOURCE: lss-core/src/incidents.rs:98-104 -/
structure IncidentTracker where
  serve : DownTracker := {}
  gate : DownTracker := {}
  /-- the container state last seen, by role -/
  containers : Std.ExtTreeMap String ContainerState := ∅

/-- SOURCE: lss-core/src/incidents.rs:106-115 -/
structure IncidentInput where
  now : ℤ
  serveUp : Bool
  serveDetail : String
  gateUp : Bool
  gateDetail : String
  /-- a role whose container could not be inspected is absent -/
  containers : List (String × ContainerState)
  xids : List XidEvent

/-- SOURCE: lss-core/src/incidents.rs:130-140 -/
def containerStep (now : ℤ) (seen : Std.ExtTreeMap String ContainerState)
    (c : String × ContainerState) : Std.ExtTreeMap String ContainerState × List IncidentOp :=
  (seen.insert c.1 c.2,
    match seen[c.1]? with
    | none => []
    | some prev =>
      match restartDetail prev c.2 with
      | none => []
      | some detail =>
        let ts := if prev.startedAt < c.2.startedAt then c.2.startedAt else now
        [.event .containerRestart ts c.1 detail none])

/-- The characters that count as blanks. -/
def isBlank (c : Char) : Bool :=
  let n := c.toNat
  (9 ≤ n && n ≤ 13) || (0x2000 ≤ n && n ≤ 0x200A) ||
    [0x20, 0x85, 0xA0, 0x1680, 0x2028, 0x2029, 0x202F, 0x205F, 0x3000].contains n

/-- Text without the blanks at its ends. -/
def trim (s : String) : String :=
  String.ofList (((s.toList.dropWhile isBlank).reverse.dropWhile isBlank).reverse)

theorem isBlank_of_toNat {c : Char} (low : 33 ≤ c.toNat) (high : c.toNat ≤ 126) :
    isBlank c = false := by
  unfold isBlank
  simp only [Bool.or_eq_false_iff, Bool.and_eq_false_iff, decide_eq_false_iff_not, not_le]
  refine ⟨⟨by omega, by omega⟩, ?_⟩
  rw [List.contains_eq_mem, decide_eq_false_iff_not]
  simp only [List.mem_cons, List.not_mem_nil, or_false, not_or]
  omega

theorem toNat_of_alpha {c : Char} (h : c.isAlpha) :
    65 ≤ c.toNat ∧ c.toNat ≤ 90 ∨ 97 ≤ c.toNat ∧ c.toNat ≤ 122 := by
  rcases Bool.or_eq_true_iff.mp h with upper | lower
  · exact .inl (of_decide_eq_true upper)
  · obtain ⟨low, high⟩ := Bool.and_eq_true_iff.mp lower
    exact .inr ⟨of_decide_eq_true low, of_decide_eq_true high⟩

theorem toNat_of_digit {c : Char} (h : c.isDigit) : 48 ≤ c.toNat ∧ c.toNat ≤ 57 := by
  simp only [Char.isDigit, Bool.and_eq_true, decide_eq_true_eq] at h
  exact h

theorem toNat_of_alphanum {c : Char} (h : c.isAlphanum) : 48 ≤ c.toNat ∧ c.toNat ≤ 122 := by
  rcases Bool.or_eq_true_iff.mp h with alpha | digit
  · have bounds := toNat_of_alpha alpha
    omega
  · have bounds := toNat_of_digit digit
    omega

/-- Letters and digits are no blanks. -/
theorem isBlank_alphanum {c : Char} (h : c.isAlphanum) : isBlank c = false := by
  have bounds := toNat_of_alphanum h
  apply isBlank_of_toNat <;> omega

theorem isBlank_digit {c : Char} (h : c.isDigit) : isBlank c = false :=
  isBlank_alphanum (by simp [Char.isAlphanum, h])

/-- SOURCE: lss-core/src/incidents.rs:142-145 -/
def xidOp (x : XidEvent) : IncidentOp :=
  .event .xid x.ts x.gpuLabel
    (trim (x.gpuLabel ++ " Xid " ++ toString x.xid ++ " (" ++ xidHint x.xid ++ ") " ++ x.detail))
    (some (xidKey x.gpuLabel x.xid x.ts))

/-- SOURCE: lss-core/src/incidents.rs:125-147 -/
def IncidentTracker.step (t : IncidentTracker) (input : IncidentInput) :
    IncidentTracker × List IncidentOp :=
  let serve := t.serve.step .serveDown input.now input.serveUp input.serveDetail
  let gate := t.gate.step .gateDown input.now input.gateUp input.gateDetail
  let containers := Machine.run (containerStep input.now) t.containers input.containers
  (⟨serve.1, gate.1, containers.1⟩,
    serve.2 ++ gate.2 ++ containers.2 ++ input.xids.map xidOp)

/-- A run of the tracker from its initial state. -/
def trackAll (inputs : List IncidentInput) : IncidentTracker × List IncidentOp :=
  Machine.run IncidentTracker.step {} inputs

theorem trackAll_concat (inputs : List IncidentInput) (i : IncidentInput) :
    trackAll (inputs ++ [i]) = (((trackAll inputs).1.step i).1,
      (trackAll inputs).2 ++ ((trackAll inputs).1.step i).2) :=
  Machine.run_concat _ _ _ _

/-! ## The table of incidents -/

/-- A row of the table. -/
structure IncidentRow extends Incident where
  dedupeKey : Option String
deriving DecidableEq

/-- The identifier the next row gets. -/
def nextIncidentId (rows : List IncidentRow) : ℤ :=
  rows.foldl (fun m r => max m r.id) 0 + 1

/-- SOURCE: lss-collector/src/db.rs:179-182 -/
def openIncident (rows : List IncidentRow) (kind : IncidentKind) (start : ℤ) (detail : String) :
    List IncidentRow :=
  rows ++ [⟨⟨nextIncidentId rows, start, none, kind, detail⟩, none⟩]

/-- SOURCE: lss-collector/src/db.rs:184-187 -/
def closeIncident (rows : List IncidentRow) (kind : IncidentKind) (endTs : ℤ) :
    List IncidentRow :=
  rows.map fun r => if r.kind = kind ∧ r.endTs = none then { r with endTs := some endTs } else r

/-- Whether an event is in the table: by its key when there is one.
SOURCE: lss-collector/src/db.rs:193-196 -/
def eventBooked (rows : List IncidentRow) (kind : IncidentKind) (ts : ℤ) (detail : String)
    (key : Option String) : Bool :=
  match key with
  | some k => rows.any fun r => r.dedupeKey == some k
  | none => rows.any fun r => r.kind == kind && r.start == ts && r.detail == detail

/-- SOURCE: lss-collector/src/db.rs:189-202 -/
def eventIncident (rows : List IncidentRow) (kind : IncidentKind) (ts : ℤ) (detail : String)
    (key : Option String) : List IncidentRow :=
  if eventBooked rows kind ts detail key then rows
  else rows ++ [⟨⟨nextIncidentId rows, ts, some ts, kind, detail⟩, key⟩]

/-- SOURCE: lss-collector/src/main.rs:830-866 -/
def bookOp (rows : List IncidentRow) (op : IncidentOp) : List IncidentRow :=
  match op with
  | .opened kind start detail => openIncident rows kind start detail
  | .closed kind endTs _ => closeIncident rows kind endTs
  | .event kind ts _ detail key => eventIncident rows kind ts detail key

/-- The table after some operations, empty before them. -/
def incidentRows (ops : List IncidentOp) : List IncidentRow := ops.foldl bookOp []

/-- The incidents of the table. -/
def bookedIncidents (ops : List IncidentOp) : List Incident :=
  (incidentRows ops).map IncidentRow.toIncident

/-! ## The share of time the server was up -/

/-- SOURCE: lss-core/src/series.rs:780-788 -/
structure Uptime where
  h24 : Option ℚ
  d7 : Option ℚ
  since : ℤ

/-- The share over one window of `secs` seconds.
SOURCE: lss-core/src/series.rs:793-805 -/
def uptimeWindow (now firstSampleTs : ℤ) (incidents : List Incident) (secs : ℤ) : Option ℚ :=
  let start := max (now - secs) firstSampleTs
  let span := now - start
  if span ≤ 0 then none
  else
    let down : ℤ := ((incidents.filter fun i => i.kind = .serveDown).map fun i =>
      max (min (i.endTs.getD now) now - max i.start start) 0).sum
    some (roundHalfAway (max 0 (min 1 (1 - (down : ℚ) / span)) * 100000) / 100000)

/-- SOURCE: lss-core/src/series.rs:790-807 -/
def uptime (now firstSampleTs : ℤ) (incidents : List Incident) : Uptime where
  h24 := uptimeWindow now firstSampleTs incidents 86400
  d7 := uptimeWindow now firstSampleTs incidents (7 * 86400)
  since := firstSampleTs

end Lss.Model
