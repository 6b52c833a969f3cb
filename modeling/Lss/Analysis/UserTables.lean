import Lss.Model.Users

/-!
# The parts of the users table

Every row of the gateway goes to one place: the benchmark's row apart, the collector's own
requests at an address to the probe's row, everything else to the rows of the table. Nothing is
subtracted that is not there. The parts add up to what the gateway counted before the table is cut
to fifty rows, where the gateway names the benchmark and the probe's address once.
-/

set_option autoImplicit false

namespace Lss.Analysis.UserTables

open Lss.Model (benchUser checkedSub)
open Lss.Model.Users

section Split

variable (aliases : List UserAlias) (tailscale : Std.ExtTreeMap String String) (own : OwnTraffic)
  (now : ℤ)

/-! ## One user -/

/-- A row at the address the collector asks from. -/
def isProbe (u : GateUser) : Bool := !isBench u && isProbeAddress own u

/-- What the collector's own requests leave of a row. -/
def left (u : GateUser) : GateUser :=
  { u with
    requests24h := u.requests24h - min own.probes24h u.requests24h
    requests1h := u.requests1h - min own.probes1h u.requests1h
    ok24h := u.ok24h - min own.probes24h u.requests24h }

/-- Nothing is left of a row's day, and nothing is in flight. -/
def Gone (u : GateUser) : Prop := (left own u).requests24h = 0 ∧ u.inflight = 0

instance (u : GateUser) : Decidable (Gone own u) := inferInstanceAs (Decidable (_ ∧ _))

/-- What the rows of the table get of a user. -/
def keptOf (u : GateUser) : Option GateUser :=
  if isBench u then none
  else if isProbeAddress own u then if Gone own u then none else some (left own u)
  else some u

/-- The totals after a user. -/
def totalsOf (t : GateTotals) (u : GateUser) : GateTotals :=
  if isBench u then withoutBench now t u
  else if isProbeAddress own u ∧ Gone own u then withoutUser now t u
  else t

theorem restOf_eq (u : GateUser) : restOf own u = some (left own u) := by
  have day : checkedSub u.requests24h (min own.probes24h u.requests24h) =
      some (u.requests24h - min own.probes24h u.requests24h) := if_pos (min_le_right _ _)
  have hour : checkedSub u.requests1h (min own.probes1h u.requests1h) =
      some (u.requests1h - min own.probes1h u.requests1h) := if_pos (min_le_right _ _)
  unfold restOf
  dsimp only
  rw [day, Option.bind_some, hour]
  rfl

/-- The step lemma: one user adds its part to the table, and no subtraction fails. -/
theorem addUser_eq (s : Split) (u : GateUser) :
    addUser aliases tailscale own now s u =
      some
        { totals := totalsOf own now s.totals u
          rows := s.rows ++ (keptOf own u).toList.map (named aliases tailscale now)
          bench := if isBench u then some (named aliases tailscale now u) else s.bench
          probe := if isProbe own u then some (probeRow own now u) else s.probe } := by
  unfold addUser totalsOf keptOf isProbe
  by_cases bench : isBench u = true
  · simp [bench]
  · by_cases probe : isProbeAddress own u = true
    · rw [if_neg bench, if_neg (by simp [probe]), restOf_eq, Option.map_some]
      by_cases gone : Gone own u
      · rw [if_pos (show (left own u).requests24h = 0 ∧ (left own u).inflight = 0 from gone)]
        simp [bench, probe, gone]
      · rw [if_neg (show ¬((left own u).requests24h = 0 ∧ (left own u).inflight = 0) from gone)]
        simp [bench, probe, gone]
    · simp [bench, probe]

/-! ## Any users -/

/-- The run lemma. -/
theorem foldlM_addUser (users : List GateUser) (s : Split) :
    users.foldlM (addUser aliases tailscale own now) s =
      some
        { totals := users.foldl (totalsOf own now) s.totals
          rows := s.rows ++ (users.filterMap (keptOf own)).map (named aliases tailscale now)
          bench := ((users.filter isBench).getLast?.map (named aliases tailscale now)).or s.bench
          probe := ((users.filter (isProbe own)).getLast?.map (probeRow own now)).or s.probe } := by
  have last : ∀ (p : GateUser → Bool) (f : GateUser → UserRow) (u : GateUser)
      (us : List GateUser) (old : Option UserRow),
      (((u :: us).filter p).getLast?.map f).or old =
        ((us.filter p).getLast?.map f).or (if p u then some (f u) else old) := by
    intro p f u us old
    by_cases hp : p u = true
    · rw [List.filter_cons_of_pos hp, if_pos hp, List.getLast?_cons]
      cases (us.filter p).getLast? with
      | none => rfl
      | some v => rfl
    · rw [List.filter_cons_of_neg hp, if_neg hp]
  induction users generalizing s with
  | nil => simp
  | cons u users ih =>
      rw [List.foldlM_cons, addUser_eq, Option.bind_eq_bind, Option.bind_some, ih, last, last]
      cases kept : keptOf own u with
      | none =>
          rw [List.filterMap_cons_none kept]
          simp
      | some v =>
          rw [List.filterMap_cons_some kept]
          simp

/-! ## What adds up -/

/-- A figure of some rows of the gateway, added up. -/
def sumOf (figure : GateUser → ℕ) (users : List GateUser) : ℕ := (users.map figure).sum

/-- The bench's share, the probe's and what the rows keep, of a figure that each user splits so. -/
theorem sumOf_split {figure mine : GateUser → ℕ} {users : List GateUser}
    (plain : ∀ u ∈ users, isProbe own u → ¬Gone own u → figure (left own u) + mine u = figure u)
    (gone : ∀ u ∈ users, isProbe own u → Gone own u → mine u = figure u) :
    sumOf figure (users.filter isBench) + sumOf mine (users.filter (isProbe own)) +
      sumOf figure (users.filterMap (keptOf own)) = sumOf figure users := by
  unfold sumOf
  induction users with
  | nil => rfl
  | cons u users ih =>
      have ih := ih (fun v hv => plain v (List.mem_cons_of_mem _ hv))
        (fun v hv => gone v (List.mem_cons_of_mem _ hv))
      have plain := plain u List.mem_cons_self
      have gone := gone u List.mem_cons_self
      unfold isProbe keptOf at *
      by_cases bench : isBench u = true
      · simp [bench] at ih ⊢
        omega
      · by_cases probe : isProbeAddress own u = true
        · have plain := plain (by simp [bench, probe])
          have gone := gone (by simp [bench, probe])
          by_cases g : Gone own u
          · have gone := gone g
            simp [bench, probe, g] at ih ⊢
            omega
          · have plain := plain g
            simp [bench, probe, g] at ih ⊢
            omega
        · simp [bench, probe] at ih ⊢
          omega

/-- The requests of a day. -/
theorem requests24h_split (users : List GateUser) :
    sumOf GateUser.requests24h (users.filter isBench) +
      sumOf (fun u => (probeRow own now u).gate.requests24h) (users.filter (isProbe own)) +
      sumOf GateUser.requests24h (users.filterMap (keptOf own)) =
        sumOf GateUser.requests24h users := by
  apply sumOf_split
  · intro u _ _ _
    show u.requests24h - min own.probes24h u.requests24h + min own.probes24h u.requests24h =
      u.requests24h
    omega
  · intro u _ _ gone
    have day : u.requests24h - min own.probes24h u.requests24h = 0 := gone.1
    show min own.probes24h u.requests24h = u.requests24h
    omega

/-- No row that is dropped has requests of the last hour left. -/
def HourGone (users : List GateUser) : Prop :=
  ∀ u ∈ users, isProbe own u → Gone own u → (left own u).requests1h = 0

instance (users : List GateUser) : Decidable (HourGone own users) :=
  inferInstanceAs (Decidable (∀ u ∈ users, _))

/-- The requests of an hour. -/
theorem requests1h_split {users : List GateUser} (hour : HourGone own users) :
    sumOf GateUser.requests1h (users.filter isBench) +
      sumOf (fun u => (probeRow own now u).gate.requests1h) (users.filter (isProbe own)) +
      sumOf GateUser.requests1h (users.filterMap (keptOf own)) =
        sumOf GateUser.requests1h users := by
  apply sumOf_split
  · intro u _ _ _
    show u.requests1h - min own.probes1h u.requests1h + min own.probes1h u.requests1h =
      u.requests1h
    omega
  · intro u hu probe gone
    have none_left : u.requests1h - min own.probes1h u.requests1h = 0 := hour u hu probe gone
    show min own.probes1h u.requests1h = u.requests1h
    omega

/-- The requests in flight of everybody but the benchmark. -/
theorem inflight_totals (users : List GateUser) (t : GateTotals) :
    (users.foldl (totalsOf own now) t).inflight =
      t.inflight - sumOf GateUser.inflight (users.filter isBench) := by
  induction users generalizing t with
  | nil => rfl
  | cons u users ih =>
      rw [List.foldl_cons, ih]
      unfold totalsOf sumOf
      by_cases bench : isBench u = true
      · rw [if_pos bench, List.filter_cons_of_pos bench, List.map_cons, List.sum_cons]
        show t.inflight - u.inflight - _ = _
        omega
      · rw [if_neg bench, List.filter_cons_of_neg bench]
        split
        · rfl
        · rfl

/-- A user whose request is in flight, and not the benchmark's. -/
def active (u : GateUser) : Bool := !isBench u && decide (0 < u.inflight)

/-- The rows with a request in flight are the users with one. -/
theorem length_active (users : List GateUser) :
    ((users.filterMap (keptOf own)).filter fun u => 0 < u.inflight).length =
      (users.filter active).length := by
  induction users with
  | nil => rfl
  | cons u users ih =>
      unfold keptOf active at *
      by_cases bench : isBench u = true
      · simpa [bench] using ih
      · by_cases probe : isProbeAddress own u = true
        · by_cases gone : Gone own u
          · -- nothing of such a row was in flight
            have none_held : u.inflight = 0 := gone.2
            simpa [bench, probe, gone, none_held] using ih
          · have same : (left own u).inflight = u.inflight := rfl
            by_cases held : 0 < u.inflight
            · simpa [bench, probe, gone, same, held] using ih
            · simpa [bench, probe, gone, same, held] using ih
        · by_cases held : 0 < u.inflight
          · simpa [bench, probe, held] using ih
          · simpa [bench, probe, held] using ih

/-- The benchmark's requests and everybody else's. -/
theorem inflight_split (users : List GateUser) :
    sumOf GateUser.inflight (users.filter isBench) +
      sumOf GateUser.inflight (users.filter fun u => !isBench u) =
        sumOf GateUser.inflight users := by
  have parts := List.sum_map_filter_add_sum_map_filter_not (fun u => isBench u = true)
    GateUser.inflight users
  simpa [sumOf] using parts

/-! ## The table -/

/-- At most one row of the gateway is the benchmark's, and one the probe's address. -/
structure NamedOnce (users : List GateUser) : Prop where
  bench : (users.filter isBench).length ≤ 1
  probe : (users.filter (isProbe own)).length ≤ 1

/-- The last of at most one row stands for all of them. -/
theorem sumOf_last {users : List GateUser} (one : users.length ≤ 1) (row : GateUser → UserRow)
    (figure : GateUser → ℕ) :
    (users.getLast?.map row).elim 0 (fun r => figure r.gate) =
      sumOf (fun u => figure (row u).gate) users := by
  match users, one with
  | [], _ => rfl
  | [u], _ => rfl

/-- What holds of the table `doc` made of some users, whose rows were `split` before they were
sorted and cut. -/
structure Partitioned (users : List GateUser) (totals : Option GateTotals) (split : Split)
    (doc : UsersStatus) : Prop where
  shown : doc.rows = (split.rows.insertionSort busier).take 50
  bench : doc.bench = (users.filter isBench).getLast?.map (named aliases tailscale now)
  probe : doc.probe = (users.filter (isProbe own)).getLast?.map (probeRow own now)
  requests24h : NamedOnce own users →
    doc.bench.elim 0 (fun r => r.gate.requests24h) + doc.probe.elim 0 (fun r => r.gate.requests24h) +
      (split.rows.map fun r => r.gate.requests24h).sum = sumOf GateUser.requests24h users
  requests1h : NamedOnce own users → HourGone own users →
    doc.bench.elim 0 (fun r => r.gate.requests1h) + doc.probe.elim 0 (fun r => r.gate.requests1h) +
      (split.rows.map fun r => r.gate.requests1h).sum = sumOf GateUser.requests1h users
  noBench : ∀ r ∈ split.rows, ¬isBench r.gate
  onlyLeft : ∀ r ∈ split.rows, isProbeAddress own r.gate →
    ∃ u ∈ users, isProbe own u ∧ ¬Gone own u ∧ r.gate = left own u
  activeNow : doc.activeNow = (users.filter active).length
  inflight : (totals.all fun t => t.inflight = sumOf GateUser.inflight users) →
    doc.totals.inflight = sumOf GateUser.inflight (users.filter fun u => !isBench u)

/-- Where a row of the table comes from. -/
theorem mem_rows {users : List GateUser} {r : UserRow}
    (h : r ∈ (users.filterMap (keptOf own)).map (named aliases tailscale now)) :
    ∃ u ∈ users, ¬isBench u ∧ (¬isProbeAddress own u ∧ r.gate = u ∨
      isProbe own u ∧ ¬Gone own u ∧ r.gate = left own u) := by
  obtain ⟨v, hv, rfl⟩ := List.mem_map.mp h
  obtain ⟨u, hu, kept⟩ := List.mem_filterMap.mp hv
  refine ⟨u, hu, ?_⟩
  unfold keptOf at kept
  unfold isProbe
  split at kept
  · cases kept
  · rename_i bench
    refine ⟨bench, ?_⟩
    split at kept
    · rename_i probe
      split at kept
      · cases kept
      · rename_i stays
        cases kept
        exact Or.inr ⟨by simp [bench, probe], stays, rfl⟩
    · rename_i probe
      cases kept
      exact Or.inl ⟨probe, rfl⟩

/-- The table of a split that went through. -/
theorem buildUsers_of_split {users : List GateUser} {totals : Option GateTotals} {s : Split}
    (run : splitUsers aliases tailscale own now users totals = some s) :
    buildUsers aliases tailscale own now (some ⟨some users, totals⟩) =
      some
        { available := true
          activeNow := ((s.rows.insertionSort busier).filter fun r => 0 < r.gate.inflight).length
          totals := s.totals
          rows := (s.rows.insertionSort busier).take 50
          bench := s.bench
          probe := s.probe } := by
  unfold buildUsers
  simp only [Option.bind_some, run, Option.map_some]

theorem users_table_partitions (users : List GateUser) (totals : Option GateTotals) :
    ∃ split doc, splitUsers aliases tailscale own now users totals = some split ∧
      buildUsers aliases tailscale own now (some ⟨some users, totals⟩) = some doc ∧
      Partitioned aliases tailscale own now users totals split doc := by
  have run := foldlM_addUser aliases tailscale own now users
    { totals := totals.getD { inflight := (users.map GateUser.inflight).sum } }
  simp only [List.nil_append, Option.or_none] at run
  refine ⟨_, _, run, buildUsers_of_split aliases tailscale own now run, ?_⟩
  have figures : ∀ figure : GateUser → ℕ,
      (((users.filterMap (keptOf own)).map (named aliases tailscale now)).map
        fun r => figure r.gate).sum = sumOf figure (users.filterMap (keptOf own)) := by
    intro figure
    rw [List.map_map]
    rfl
  refine ⟨rfl, rfl, rfl, ?_, ?_, ?_, ?_, ?_, ?_⟩
  · intro once
    dsimp only
    rw [figures, sumOf_last once.bench, sumOf_last once.probe]
    exact requests24h_split own now users
  · intro once hour
    dsimp only
    rw [figures, sumOf_last once.bench, sumOf_last once.probe]
    exact requests1h_split own now hour
  · intro r hr
    obtain ⟨u, _, bench, ⟨_, rfl⟩ | ⟨_, _, kept⟩⟩ := mem_rows aliases tailscale own now hr
    · exact bench
    · rw [kept]
      exact bench
  · intro r hr probe
    obtain ⟨u, hu, _, ⟨other, rfl⟩ | stays⟩ := mem_rows aliases tailscale own now hr
    · exact absurd probe other
    · exact ⟨u, hu, stays⟩
  · dsimp only
    rw [((List.perm_insertionSort _ _).filter _).length_eq, List.filter_map, List.length_map]
    exact length_active own users
  · intro consistent
    dsimp only
    rw [inflight_totals]
    have parts := inflight_split users
    cases totals with
    | none =>
        show sumOf GateUser.inflight users - _ = _
        omega
    | some t =>
        have all : t.inflight = sumOf GateUser.inflight users := by simpa using consistent
        show t.inflight - _ = _
        omega

end Split

/-- A figure of the three parts of a table, added up. -/
def shownOf (figure : GateUser → ℕ) (doc : UsersStatus) : ℕ :=
  doc.bench.elim 0 (fun r => figure r.gate) + doc.probe.elim 0 (fun r => figure r.gate) +
    (doc.rows.map fun r => figure r.gate).sum

/-- The table without names for addresses. -/
def plainTable (own : OwnTraffic) (users : List GateUser) : Option UsersStatus :=
  buildUsers [] ∅ own 0 (some ⟨some users, none⟩)

/-- A user with as many requests, all of the last hour. -/
def someUser (lane user : String) (requests : ℕ) : GateUser :=
  { lane := lane, user := user, requests1h := requests, requests24h := requests }

/-- One user too many for the table. -/
def fiftyOne : List GateUser := List.replicate 51 (someUser "public" "acme" 1)

/-- Two rows of the benchmark. -/
def twoBenches : List GateUser := [someUser "trusted" benchUser 3, someUser "trusted" benchUser 4]

/-- Ten requests at the address the collector asks from. -/
def shared : List GateUser := [someUser "trusted" "127.0.0.1" 10]

/-- The fifty-first user is cut off, of two rows of the benchmark one is shown, what is left of the
last hour goes with a row whose day is used up, and what is left of a day stays at the probe's
address. -/
theorem a_table_shows_less_than_the_gate_counts :
    ((plainTable {} fiftyOne).map (shownOf GateUser.requests24h) = some 50 ∧
        sumOf GateUser.requests24h fiftyOne = 51) ∧
      ((plainTable {} twoBenches).map (shownOf GateUser.requests24h) = some 4 ∧
        sumOf GateUser.requests24h twoBenches = 7) ∧
      ((plainTable ⟨some "127.0.0.1", 6, 288⟩ shared).map (shownOf GateUser.requests1h) = some 6 ∧
        sumOf GateUser.requests1h shared = 10) ∧
      (plainTable ⟨some "127.0.0.1", 2, 4⟩ shared).map (fun doc => doc.rows.map fun r =>
        isProbeAddress ⟨some "127.0.0.1", 2, 4⟩ r.gate) = some [true] := by
  decide +kernel

end Lss.Analysis.UserTables
