import Lss.Model.GatewayTable

/-!
# The accounts of the gateway table

A probe is taken out of the trusted lane where the lane holds a request of its status, and out of
everything else as far as it goes. The statuses of a lane add up to its requests before and after
every probe, so the row made of the statuses shows the requests of the lane without the probes
that were taken out. A row made of codes never shows more of them than requests.
-/

set_option autoImplicit false

namespace Lss.Analysis.GatewayBalance

open Lss.Model Lss.Library Lss.Library.Tally

/-! ## Taking the probes out -/

/-- The statuses of a lane add up to its requests. -/
def Balanced (l : LaneLog) : Prop := total id l.byStatus = l.requests

theorem checkedSub_of_le {a b : ℕ} (h : b ≤ a) : checkedSub a b = some (a - b) := if_pos h

/-- One probe: nothing goes below zero, the lane stays balanced, and what it loses is counted. -/
theorem takeProbe_balanced (coverage : CodeCoverage) (probeIp : Option String) {l : LaneLog}
    (h : Balanced l) (taken : ℕ) (probe : ℤ × ℕ) :
    ∃ acc, takeProbe coverage probeIp (l, taken) probe = some acc ∧ Balanced acc.1 ∧
      acc.1.requests + acc.2 = l.requests + taken := by
  unfold takeProbe
  dsimp only
  cases held : (l.byStatus[probe.2]?).filter fun n => 0 < n with
  | none => exact ⟨(l, taken), rfl, h, rfl⟩
  | some n =>
      obtain ⟨status, hpos⟩ : l.byStatus[probe.2]? = some n ∧ 0 < n := by
        simpa [Option.filter_eq_some_iff] using held
      -- one request less of that status
      have less : total id (l.byStatus.modify probe.2 fun _ => n - 1) + n =
          total id l.byStatus + (n - 1) := by
        have modified := total_modify id l.byStatus probe.2 fun _ => n - 1
        unfold weight at modified
        rw [status] at modified
        exact modified
      have before : total id l.byStatus = l.requests := h
      have after : total id (l.byStatus.modify probe.2 fun _ => n - 1) = l.requests - 1 := by omega
      have count : l.requests - 1 + (taken + 1) = l.requests + taken := by omega
      have left : checkedSub n 1 = some (n - 1) := checkedSub_of_le hpos
      dsimp only
      rw [left, Option.map_some]
      by_cases covered : coverage.covers probe.1
      · rw [if_neg (by simp [covered])]
        exact ⟨_, rfl, after, count⟩
      · rw [if_pos (by simp [covered])]
        exact ⟨_, rfl, after, count⟩

/-- Any probes. -/
theorem takeProbes_balanced (coverage : CodeCoverage) (probeIp : Option String)
    (probes : List (ℤ × ℕ)) {l : LaneLog} (h : Balanced l) (taken : ℕ) :
    ∃ acc, takeProbes coverage probeIp (l, taken) probes = some acc ∧ Balanced acc.1 ∧
      acc.1.requests + acc.2 = l.requests + taken := by
  induction probes generalizing l taken with
  | nil => exact ⟨(l, taken), rfl, h, rfl⟩
  | cons probe probes ih =>
      obtain ⟨next, step, balanced, count⟩ := takeProbe_balanced coverage probeIp h taken probe
      obtain ⟨acc, run, balanced', count'⟩ := ih balanced next.2
      refine ⟨acc, ?_, balanced', count'.trans count⟩
      unfold takeProbes at run ⊢
      rw [List.foldlM_cons, step]
      exact run

/-! ## The rows -/

/-- The codes of a row do not exceed its requests, nor their classes the codes. -/
structure RowBalanced (row : GatewayRow) : Prop where
  coded : row.codedRequests ≤ row.requests
  classes : row.c2xx.getD 0 + row.c4xx.getD 0 + row.c5xx.getD 0 ≤ row.codedRequests

/-- The three classes are parts of all the statuses. -/
theorem classes_le (codes : Std.ExtTreeMap ℕ ℕ) :
    GatewayRow.classCount codes 2 + GatewayRow.classCount codes 4 + GatewayRow.classCount codes 5 ≤
      total id codes := by
  unfold GatewayRow.classCount total
  generalize codes.toList = entries
  induction entries with
  | nil => exact le_rfl
  | cons e entries ih =>
      simp only [List.filter_cons, List.map_cons, List.sum_cons, id_eq] at ih ⊢
      -- the entry is of one class at most
      by_cases h2 : e.1 / 100 = 2
      · simp [h2]
        omega
      · by_cases h4 : e.1 / 100 = 4
        · simp [h4]
          omega
        · by_cases h5 : e.1 / 100 = 5
          · simp [h5]
            omega
          · simp [h2, h4, h5]
            omega

theorem fromCodes_balanced (name lane : String) (codes : Std.ExtTreeMap ℕ ℕ) (est : EstTokens) :
    RowBalanced (.fromCodes name lane codes est) := ⟨le_rfl, classes_le codes⟩

theorem uncoded_balanced (name lane : String) (requests : ℕ) :
    RowBalanced (.uncoded name lane requests) := ⟨Nat.zero_le _, le_rfl⟩

/-- More requests leave a row balanced. -/
theorem RowBalanced.more {row : GatewayRow} (h : RowBalanced row) (n : ℕ) :
    RowBalanced { row with requests := max row.requests n } :=
  ⟨h.coded.trans (le_max_left _ _), h.classes⟩

theorem keyRow_balanced (full : Bool) (lane : String) (l : LaneLog) (key : String) (n : ℕ) :
    RowBalanced (keyRow full lane l key n) := by
  have unbroken : RowBalanced (if !full then GatewayRow.uncoded key lane n
      else GatewayRow.fromCodes key lane ∅ ((l.byKeyEst[key]?).getD {})) := by
    split
    · exact uncoded_balanced _ _ _
    · exact fromCodes_balanced _ _ _ _
  unfold keyRow
  apply RowBalanced.more
  split
  · split
    · exact fromCodes_balanced _ _ _ _
    · exact unbroken
  · exact unbroken

theorem ipRows_balanced {lane : String} {l : LaneLog} {row : GatewayRow} (h : row ∈ ipRows lane l) :
    RowBalanced row := by
  obtain ⟨e, _, rfl⟩ := List.mem_map.mp h
  exact uncoded_balanced _ _ _

theorem keyRows_balanced {full : Bool} {lane : String} {l : LaneLog} {row : GatewayRow}
    (h : row ∈ keyRows full lane l) : RowBalanced row := by
  obtain ⟨e, _, rfl⟩ := List.mem_map.mp (List.mem_filter.mp h).1
  exact keyRow_balanced _ _ _ _ _

/-- The rows that are left of a sorted list are rows of the list. -/
theorem mem_of_mem_busiest {rows : List GatewayRow} {n : ℕ} {row : GatewayRow}
    (h : row ∈ (rows.insertionSort GatewayRow.busiest).take n) : row ∈ rows :=
  (List.mem_insertionSort _).mp (List.mem_of_mem_take h)

/-! ## The table -/

/-- What balances in the table of a range. -/
structure TableBalanced (log : LogDelta) (doc : GatewayDoc) : Prop where
  trusted : ∃ row ∈ doc.lanes, row.name = "trusted" ∧
    row.requests = log.trustedLane.requests - doc.probesExcluded
  excluded : doc.probesExcluded ≤ log.trustedLane.requests
  rows : ∀ row ∈ doc.lanes ++ doc.keys ++ doc.ips, RowBalanced row

/-- The statuses and the keys of a lane both add up to its requests. -/
structure LaneAgrees (l : LaneLog) : Prop where
  byStatus : total id l.byStatus = l.requests
  byKey : total id l.byKey = l.requests

theorem gateway_table_balances (log : LogDelta) (agrees : LaneAgrees log.publicLane ∧
    LaneAgrees log.trustedLane) (now rangeS : ℤ) (probes : List (ℤ × ℕ)) (coverage : CodeCoverage)
    (probeIp : Option String) :
    ∃ doc, buildGateway now rangeS log probes coverage probeIp = some doc ∧
      TableBalanced log doc := by
  obtain ⟨⟨trusted, excluded⟩, run, balanced, count⟩ :=
    takeProbes_balanced coverage probeIp probes agrees.2.byStatus 0
  have row : total id trusted.byStatus = trusted.requests := balanced
  have count : trusted.requests + excluded = log.trustedLane.requests := count
  unfold buildGateway
  rw [run, Option.map_some]
  refine ⟨_, rfl, ?_, ?_, ?_⟩
  · refine ⟨.fromCodes "trusted" "trusted" trusted.byStatus trusted.est, by simp, rfl, ?_⟩
    show total id trusted.byStatus = log.trustedLane.requests - excluded
    omega
  · show excluded ≤ log.trustedLane.requests
    omega
  · intro row hrow
    rcases List.mem_append.mp hrow with hrow | hip
    · rcases List.mem_append.mp hrow with hlane | hkey
      · obtain ⟨lane, _, rfl⟩ := List.mem_map.mp hlane
        exact fromCodes_balanced _ _ _ _
      · obtain ⟨lane, _, hkey⟩ := List.mem_flatMap.mp (mem_of_mem_busiest hkey)
        exact keyRows_balanced hkey
    · obtain ⟨lane, _, hip⟩ := List.mem_flatMap.mp (mem_of_mem_busiest hip)
      exact ipRows_balanced hip

/-- A stretch with two requests answered and one refused, one of them with a key. -/
def probedStretch : LogDelta where
  trustedLane :=
    { requests := 3
      byStatus := ((∅ : Std.ExtTreeMap ℕ ℕ).insert 200 2).insert 503 1
      byKey := ((∅ : Std.ExtTreeMap String ℕ).insert noKey 2).insert "acme" 1 }

/-- More probes than the stretch holds of their status. -/
theorem a_probed_table_balances :
    (LaneAgrees probedStretch.publicLane ∧ LaneAgrees probedStretch.trustedLane) ∧
      ∃ doc, buildGateway 3600 3600 probedStretch [(10, 200), (20, 200), (30, 200)] {} none =
        some doc ∧ TableBalanced probedStretch doc := by
  have agrees : LaneAgrees probedStretch.publicLane ∧ LaneAgrees probedStretch.trustedLane :=
    ⟨⟨rfl, rfl⟩, ⟨by decide +kernel, by decide +kernel⟩⟩
  exact ⟨agrees, gateway_table_balances probedStretch agrees 3600 3600 _ {} none⟩

end Lss.Analysis.GatewayBalance
