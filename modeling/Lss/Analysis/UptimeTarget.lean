import Lss.Analysis.Uptime
import Lss.Library.Ranking
import Lss.Library.Steps
import Lss.Model.Targets

/-!
# The uptime the targets are judged on

The outages of a window reach the sum through a query that returns the newest five hundred rows
of any kind. The uptime is the measure of what no outage covers exactly when no outage that lasts
in the window has five hundred rows in front of it.
-/

set_option autoImplicit false

namespace Lss.Analysis.UptimeTarget

open Lss.Library Lss.Library.Interval Lss.Library.Ranking Lss.Model Lss.Analysis.Uptime

/-! ## The newest rows -/

instance : Std.Total newerFirst := ⟨fun i j => by unfold newerFirst; omega⟩

instance : IsTrans Incident newerFirst := ⟨fun i j k => by unfold newerFirst; omega⟩

/-- Of two rows that each come first the ids are the same. -/
theorem eq_of_newerFirst {table : IncidentTable} {i j : Incident} (hi : i ∈ table.rows)
    (hj : j ∈ table.rows) (first : newerFirst i j) (back : newerFirst j i) : i = j := by
  apply List.inj_on_of_nodup_map table.unique hi hj
  unfold newerFirst at first back
  omega

/-- How many rows the query has that come before a row. -/
def rowsBefore (table : IncidentTable) (start : ℤ) (i : Incident) : ℕ :=
  (table.rows.filter fun j => j.overlaps start).countP fun j => ¬newerFirst i j

/-- A row that overlaps is returned when fewer than the limit come before it. -/
theorem mem_incidentsSince_iff {table : IncidentTable} {start : ℤ} {i : Incident}
    (hi : i ∈ table.rows) (overlaps : i.overlaps start) :
    i ∈ incidentsSince table start ↔ rowsBefore table start i < incidentLimit := by
  have nodup : (table.rows.filter fun j => j.overlaps start).Nodup :=
    (List.Nodup.of_map _ table.unique).filter _
  have member : i ∈ table.rows.filter fun j => j.overlaps start := by simp [hi, overlaps]
  exact mem_take_insertionSort newerFirst nodup
    (fun a ha b hb => eq_of_newerFirst (List.mem_filter.mp ha).1 (List.mem_filter.mp hb).1) member

/-- An incident that lasts in a window overlaps it. -/
theorem overlaps_of_clipped {now start : ℤ} {i : Incident} (h : 0 < i.clipped now start) :
    i.overlaps start := by
  unfold Incident.clipped at h
  unfold Incident.overlaps
  cases hend : i.endTs with
  | none => simp
  | some stop =>
      rw [hend, Option.getD_some] at h
      have reaches : start ≤ stop := by omega
      simp [reaches]

theorem clipped_nonneg (now start : ℤ) (i : Incident) : 0 ≤ i.clipped now start :=
  le_max_right _ _

/-! ## The sum over the rows that are returned -/

/-- What the outages of some rows last in a window. -/
def down (now start : ℤ) (rows : List Incident) : ℤ :=
  ((rows.filter fun i => i.kind = .serveDown).map (Incident.clipped now start)).sum

theorem down_perm (now start : ℤ) {rows rows' : List Incident} (h : rows.Perm rows') :
    down now start rows = down now start rows' :=
  ((h.filter _).map _).sum_eq

theorem down_append (now start : ℤ) (rows rows' : List Incident) :
    down now start (rows ++ rows') = down now start rows + down now start rows' := by
  simp [down]

theorem down_nonneg (now start : ℤ) (rows : List Incident) : 0 ≤ down now start rows := by
  apply List.sum_nonneg
  simp only [List.mem_map]
  rintro _ ⟨i, _, rfl⟩
  exact clipped_nonneg now start i

theorem down_eq_zero_iff {now start : ℤ} {rows : List Incident} :
    down now start rows = 0 ↔
      ∀ i ∈ rows, i.kind = .serveDown → i.clipped now start = 0 := by
  unfold down
  rw [Steps.sum_eq_zero_iff fun i _ => clipped_nonneg now start i]
  simp

/-- Rows that do not overlap a window add nothing. -/
theorem down_filter_overlaps (now start : ℤ) (rows : List Incident) :
    down now start (rows.filter fun i => i.overlaps start) = down now start rows := by
  have parts := down_perm now start
    (List.filter_append_perm (fun i => decide (i.overlaps start)) rows)
  rw [down_append] at parts
  have rest : down now start (rows.filter fun i => !decide (i.overlaps start)) = 0 := by
    rw [down_eq_zero_iff]
    intro i hi _
    have outside : ¬i.overlaps start := by simpa using (List.mem_filter.mp hi).2
    by_contra lasts
    exact outside (overlaps_of_clipped (lt_of_le_of_ne (clipped_nonneg now start i) (Ne.symm lasts)))
  linarith

/-- The query drops nothing of the outages exactly when none that lasts in the window has as
many rows before it as the query returns. -/
theorem down_incidentsSince_iff {table : IncidentTable} {now start : ℤ} :
    down now start (incidentsSince table start) = down now start table.rows ↔
      ∀ i ∈ table.rows, i.kind = .serveDown → 0 < i.clipped now start →
        rowsBefore table start i < incidentLimit := by
  set sorted := (table.rows.filter fun i => i.overlaps start).insertionSort newerFirst with hsorted
  have perm : sorted.Perm (table.rows.filter fun i => i.overlaps start) :=
    List.perm_insertionSort _ _
  have whole : down now start (sorted.take incidentLimit) +
      down now start (sorted.drop incidentLimit) = down now start table.rows := by
    rw [← down_append, List.take_append_drop, down_perm _ _ perm, down_filter_overlaps]
  have taken : incidentsSince table start = sorted.take incidentLimit := rfl
  have member : ∀ i, i ∈ sorted ↔ i ∈ table.rows ∧ i.overlaps start := by
    intro i
    rw [perm.mem_iff, List.mem_filter, decide_eq_true_iff]
  have nothing : down now start (incidentsSince table start) = down now start table.rows ↔
      down now start (sorted.drop incidentLimit) = 0 := by
    rw [taken]
    constructor <;> intro h <;> linarith
  rw [nothing, down_eq_zero_iff]
  constructor
  · intro dropped i hi kind lasts
    have overlaps := overlaps_of_clipped lasts
    rw [← mem_incidentsSince_iff hi overlaps, taken]
    by_contra missing
    have late : i ∈ sorted.drop incidentLimit := by
      have all := (member i).mpr ⟨hi, overlaps⟩
      rw [← List.take_append_drop incidentLimit sorted] at all
      exact (List.mem_append.mp all).resolve_left missing
    have none_left := dropped i late kind
    omega
  · intro few i late kind
    by_contra lasts
    have hi := (member i).mp (List.mem_of_mem_drop late)
    have early := few i hi.1 kind
      (lt_of_le_of_ne (clipped_nonneg now start i) (Ne.symm lasts))
    rw [← mem_incidentsSince_iff hi.1 hi.2, taken] at early
    have nodup : sorted.Nodup :=
      perm.nodup_iff.mpr ((List.Nodup.of_map _ table.unique).filter _)
    rw [← List.take_append_drop incidentLimit sorted] at nodup
    exact (List.nodup_append.mp nodup).2.2 i early i late rfl

theorem down_incidentsSince_le (table : IncidentTable) (now start : ℤ) :
    down now start (incidentsSince table start) ≤ down now start table.rows := by
  have perm := List.perm_insertionSort newerFirst (table.rows.filter fun i => i.overlaps start)
  have rest := down_nonneg now start (((table.rows.filter fun i => i.overlaps start).insertionSort
    newerFirst).drop incidentLimit)
  rw [← down_filter_overlaps now start table.rows, ← down_perm _ _ perm,
    ← List.take_append_drop incidentLimit (List.insertionSort _ _), down_append]
  exact le_add_of_nonneg_right rest

/-! ## The share of the window -/

/-- No two outages last at the same time. -/
def OutagesApart (now : ℤ) (rows : List Incident) : Prop :=
  (rows.filter fun i => i.kind = .serveDown).Pairwise fun i j =>
    Disjoint (Set.Ioo (i.start : ℝ) ((i.endTs.getD now : ℤ) : ℝ))
      (Set.Ioo (j.start : ℝ) ((j.endTs.getD now : ℤ) : ℝ))

theorem downShare_eq_down {now : ℤ} {rows : List Incident} (apart : OutagesApart now rows)
    (start : ℤ) : downShare now start rows = (down now start rows : ℝ) / (now - start) := by
  unfold downShare down
  rw [coverage_eq_sum_of_apart apart, Int.cast_list_sum, List.map_map]
  congr 2
  apply List.map_congr_left
  intro i _
  simp only [Function.comp_apply, Incident.clipped]
  push_cast
  rfl

/-- The clamp never acts: the rows that are returned last at most as long as the window. -/
theorem uptimePct_eq {table : IncidentTable} {now start : ℤ} (apart : OutagesApart now table.rows)
    (h : start < now) :
    uptimePct table now start =
      some ((1 - (down now start (incidentsSince table start) : ℚ) / ((now - start : ℤ) : ℚ)) *
        100) := by
  have span : (0 : ℚ) < ((now - start : ℤ) : ℚ) := by exact_mod_cast (by omega : 0 < now - start)
  have most : down now start table.rows ≤ now - start := by
    have share := downShare_le_one h table.rows
    have span' : (0 : ℝ) < (now : ℝ) - start := by
      have lt : (start : ℝ) < now := by exact_mod_cast h
      linarith
    rw [downShare_eq_down apart, div_le_one span'] at share
    exact_mod_cast share
  have low : 0 ≤ (down now start (incidentsSince table start) : ℚ) := by
    exact_mod_cast down_nonneg now start _
  have high : (down now start (incidentsSince table start) : ℚ) ≤ ((now - start : ℤ) : ℚ) := by
    exact_mod_cast (down_incidentsSince_le table now start).trans most
  have share_low := div_nonneg low span.le
  have share_high := (div_le_one span).mpr high
  unfold uptimePct
  rw [if_pos h]
  show some (max 0 (min 1 (1 - (down now start (incidentsSince table start) : ℚ) /
    ((now - start : ℤ) : ℚ))) * 100) = _
  rw [min_eq_right (by linarith), max_eq_right (by linarith)]

/-- The uptime the targets are judged on is what no outage covers of the window exactly when no
outage that lasts in it has as many rows before it as the query returns. -/
theorem uptime_judged_iff (db : TargetsDb) (now secs firstSampleTs : ℤ) (cfg : TargetsConfig)
    (apart : OutagesApart now db.incidents.rows) :
    let start := max (now - secs) firstSampleTs
    let measured := (targetInputs db now secs firstSampleTs cfg).uptimePct
    (now ≤ start → measured = none) ∧
      (start < now → ((∃ u, measured = some u ∧
          (u : ℝ) = 100 * (1 - downShare now start db.incidents.rows)) ↔
        ∀ i ∈ db.incidents.rows, i.kind = .serveDown → 0 < i.clipped now start →
          rowsBefore db.incidents start i < incidentLimit)) := by
  intro start measured
  have value : measured = uptimePct db.incidents now start := rfl
  constructor
  · intro empty
    rw [value]
    exact if_neg (not_lt.mpr empty)
  · intro h
    have span : (0 : ℝ) < (now : ℝ) - start := by
      have lt : (start : ℝ) < now := by exact_mod_cast h
      linarith
    rw [← down_incidentsSince_iff, value, uptimePct_eq apart h, downShare_eq_down apart]
    set seen := down now start (incidentsSince db.incidents start)
    set total := down now start db.incidents.rows
    have same : (((1 - (seen : ℚ) / ((now - start : ℤ) : ℚ)) * 100 : ℚ) : ℝ) =
        100 * (1 - (total : ℝ) / (now - start)) ↔ seen = total := by
      push_cast
      constructor
      · intro equal
        have shares : (seen : ℝ) / (now - start) = (total : ℝ) / (now - start) := by linarith
        rw [div_left_inj' span.ne'] at shares
        exact_mod_cast shares
      · intro equal
        rw [equal]
        ring
    simp only [Option.some.injEq, exists_eq_left', same]

/-- The server was down for the first half of a day. -/
def morning : Incident := ⟨1, 0, some 43200, .serveDown, "timeout"⟩

/-- A restart in the second half of the day. -/
def restart (i : ℕ) : Incident :=
  ⟨i + 2, 43200 + i, some (43200 + i), .containerRestart, "serve restarted"⟩

/-- The outage of the morning and the restarts after it. -/
def dayOf (restarts : ℕ) : IncidentTable where
  rows := morning :: (List.range restarts).map restart
  unique := by
    rw [List.map_cons, List.map_map, List.nodup_cons]
    constructor
    · simp only [List.mem_map, List.mem_range, Function.comp_apply, restart, morning, not_exists,
        not_and]
      omega
    · apply List.Nodup.map _ List.nodup_range
      intro i j hij
      simp only [Function.comp_apply, restart] at hij
      omega

theorem outagesApart_dayOf (restarts : ℕ) : OutagesApart 86400 (dayOf restarts).rows := by
  have only : ((dayOf restarts).rows.filter fun i => i.kind = .serveDown) = [morning] := by
    simp [dayOf, morning, restart, List.filter_map, Function.comp_def]
  unfold OutagesApart
  rw [only]
  exact List.pairwise_singleton _ _

/-- Every restart comes before the outage of the morning. -/
theorem rowsBefore_morning (restarts : ℕ) : rowsBefore (dayOf restarts) 0 morning = restarts := by
  have overlap : ∀ i, (restart i).overlaps 0 := by
    intro i
    simp only [Incident.overlaps, restart]
    omega
  have later : ∀ i, ¬newerFirst morning (restart i) := by
    intro i
    simp only [newerFirst, morning, restart]
    omega
  have all : ((dayOf restarts).rows.filter fun j => j.overlaps 0) = (dayOf restarts).rows := by
    rw [List.filter_eq_self]
    intro j hj
    obtain rfl | hj := List.mem_cons.mp hj
    · decide
    · obtain ⟨i, _, rfl⟩ := List.mem_map.mp hj
      exact decide_eq_true (overlap i)
  have before : ((List.range restarts).map restart).countP (fun j => ¬newerFirst morning j) =
      restarts := by
    rw [List.countP_map, List.countP_eq_length.mpr, List.length_range]
    intro i _
    exact decide_eq_true (later i)
  have itself : newerFirst morning morning := by decide
  unfold rowsBefore
  rw [all]
  show (morning :: (List.range restarts).map restart).countP (fun j => ¬newerFirst morning j) = _
  rw [List.countP_cons_of_neg (by simp [itself]), before]

/-- Half a day of uptime is reported as such while the query still returns the outage. -/
theorem half_a_day_is_measured :
    ∃ u, (targetInputs { incidents := dayOf 499 } 86400 86400 0 {}).uptimePct = some u ∧
      (u : ℝ) = 100 * (1 - downShare 86400 0 (dayOf 499).rows) := by
  apply ((uptime_judged_iff { incidents := dayOf 499 } 86400 86400 0 {}
    (outagesApart_dayOf 499)).2 (by decide)).mpr
  intro i hi kind _
  obtain rfl | hi := List.mem_cons.mp hi
  · rw [show max (86400 - 86400 : ℤ) 0 = 0 from rfl, rowsBefore_morning]
    decide
  · obtain ⟨n, _, rfl⟩ := List.mem_map.mp hi
    exact absurd kind (by simp [restart])

/-- Five hundred restarts later the outage is dropped, and the uptime looks better for it. -/
theorem five_hundred_restarts_hide_an_outage :
    ¬ ∀ (db : TargetsDb) (now secs firstSampleTs : ℤ) (cfg : TargetsConfig),
      OutagesApart now db.incidents.rows → max (now - secs) firstSampleTs < now →
        ∃ u, (targetInputs db now secs firstSampleTs cfg).uptimePct = some u ∧
          (u : ℝ) =
            100 * (1 - downShare now (max (now - secs) firstSampleTs) db.incidents.rows) := by
  intro hall
  have kept := ((uptime_judged_iff { incidents := dayOf 500 } 86400 86400 0 {}
    (outagesApart_dayOf 500)).2 (by decide)).mp
      (hall { incidents := dayOf 500 } 86400 86400 0 {} (outagesApart_dayOf 500) (by decide))
  have few := kept morning List.mem_cons_self rfl (by decide)
  rw [show max (86400 - 86400 : ℤ) 0 = 0 from rfl, rowsBefore_morning] at few
  exact absurd few (by decide)

end Lss.Analysis.UptimeTarget
