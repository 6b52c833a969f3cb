import Mathlib.Data.Rat.Floor
import Lss.Analysis.Outages

/-!
# The share of time the server was up

The uptime arithmetic clips every outage against the window and adds the lengths. Over the
incidents of a run this is the measure of the time the server was down, so the share lies
between nothing and all, and the clamp of the source never acts. What is reported is the
share rounded to five decimals.
-/

set_option autoImplicit false

namespace Lss.Analysis.Uptime

open Lss.Library Lss.Library.AlertLog Lss.Library.Interval Lss.Model Lss.Analysis.Outages

/-- The share of a window in which the server was down: the measure of the outages that fall
into it, an outage that is open lasting until now. -/
noncomputable def downShare (now start : ℤ) (incidents : List Incident) : ℝ :=
  coverage (fun i : Incident => (i.start : ℝ)) (fun i => ((i.endTs.getD now : ℤ) : ℝ))
    (incidents.filter fun i => i.kind = .serveDown) start now / (now - start)

theorem downShare_nonneg {now start : ℤ} (h : start < now) (incidents : List Incident) :
    0 ≤ downShare now start incidents := by
  have hspan : (start : ℝ) < now := by exact_mod_cast h
  exact div_nonneg (coverage_nonneg _ _ _ _ _) (by linarith)

theorem downShare_le_one {now start : ℤ} (h : start < now) (incidents : List Incident) :
    downShare now start incidents ≤ 1 := by
  have hspan : (start : ℝ) < now := by exact_mod_cast h
  unfold downShare
  rw [div_le_one (by linarith)]
  exact coverage_le _ _ _ hspan.le

/-- The outages of a list end before the later ones start. -/
def InOrder (now : ℤ) (incidents : List Incident) : Prop :=
  (incidents.filter fun i => i.kind = .serveDown).Pairwise fun i j => i.endTs.getD now < j.start

/-- For outages in order the sum of clipped lengths is a measure. -/
theorem downShare_eq {now : ℤ} {incidents : List Incident} (ordered : InOrder now incidents)
    (start : ℤ) :
    downShare now start incidents =
      (((((incidents.filter fun i => i.kind = .serveDown).map fun i =>
        max (min (i.endTs.getD now) now - max i.start start) 0).sum : ℤ) : ℝ)) /
          (now - start) := by
  unfold downShare
  rw [coverage_eq_sum]
  · rw [Int.cast_list_sum, List.map_map]
    congr 2
    apply List.map_congr_left
    intro i _
    simp only [Function.comp_apply]
    push_cast
    rfl
  · apply List.Pairwise.imp _ ordered
    intro i j hij
    exact_mod_cast hij

/-- Rounding in the rationals is rounding in the reals. -/
theorem cast_roundHalfAway {v : ℚ} (h : 0 ≤ v) : roundHalfAway v = round (v : ℝ) := by
  unfold roundHalfAway
  rw [if_neg (not_lt.2 h), Rat.round_cast, round_eq]

/-- What a window reports of a table of incidents: nothing when it is empty, else the share
of it that no outage covers, to five decimals. -/
def WindowMeasured (now firstSampleTs : ℤ) (incidents : List Incident) (secs : ℤ)
    (reported : Option ℚ) : Prop :=
  let start := max (now - secs) firstSampleTs
  (now ≤ start → reported = none) ∧
    (start < now → ∃ u, reported = some u ∧ 0 ≤ u ∧ u ≤ 1 ∧
      (u : ℝ) = round ((1 - downShare now start incidents) * 100000) / 100000)

theorem windowMeasured_of_inOrder {now : ℤ} {incidents : List Incident}
    (ordered : InOrder now incidents) (firstSampleTs secs : ℤ) :
    WindowMeasured now firstSampleTs incidents secs
      (uptimeWindow now firstSampleTs incidents secs) := by
  unfold WindowMeasured uptimeWindow
  dsimp only
  set start := max (now - secs) firstSampleTs with hstart
  set down : ℤ := ((incidents.filter fun i => i.kind = .serveDown).map fun i =>
    max (min (i.endTs.getD now) now - max i.start start) 0).sum with hdown
  refine ⟨fun h => if_pos (by omega), ?_⟩
  intro h
  have hshare : downShare now start incidents = ((down : ℚ) / ((now - start : ℤ) : ℚ) : ℚ) := by
    rw [downShare_eq ordered, ← hdown]
    push_cast
    rfl
  have hlow : (0 : ℚ) ≤ (down : ℚ) / ((now - start : ℤ) : ℚ) := by
    have := downShare_nonneg h incidents
    rw [hshare] at this
    exact_mod_cast this
  have hhigh : (down : ℚ) / ((now - start : ℤ) : ℚ) ≤ 1 := by
    have := downShare_le_one h incidents
    rw [hshare] at this
    exact_mod_cast this
  set up : ℚ := 1 - (down : ℚ) / ((now - start : ℤ) : ℚ) with hup
  have hclamp : max 0 (min 1 up) = up := by
    rw [min_eq_right (by rw [hup]; linarith), max_eq_right (by rw [hup]; linarith)]
  have hscaled : 0 ≤ up * 100000 := mul_nonneg (by rw [hup]; linarith) (by norm_num)
  rw [if_neg (by omega), hclamp]
  refine ⟨_, rfl, ?_, ?_, ?_⟩
  · apply div_nonneg _ (by norm_num)
    exact_mod_cast roundHalfAway_nonneg hscaled
  · rw [div_le_one (by norm_num)]
    have hle : up ≤ 1 := by rw [hup]; linarith
    have hround := roundHalfAway_le hscaled (show up * 100000 ≤ (100000 : ℤ) by push_cast; linarith)
    exact_mod_cast hround
  · rw [hshare, cast_roundHalfAway hscaled, hup]
    push_cast
    rfl

/-! ## The incidents of a run -/

/-- The outages of a kind that are over, from the table. -/
def closedSpans (k : DownKind) (rows : List IncidentRow) : List (ℤ × ℤ) :=
  (spans k rows).filterMap fun p => p.2.map fun e => (p.1, e)

theorem closedSpans_of_booked {k : DownKind} {inputs : List IncidentInput}
    {log : List IncidentOp} {done : List (ℤ × ℤ)} (h : Booked k inputs log done) :
    closedSpans k (incidentRows log) = done := by
  unfold closedSpans
  rw [h.rows]
  unfold spansOf
  have hdone : (done.map fun p => (p.1, some p.2)).filterMap
      (fun p : ℤ × Option ℤ => p.2.map fun e => (p.1, e)) = done := by
    rw [List.filterMap_map]
    exact List.filterMap_some
  rw [List.filterMap_append, hdone]
  split <;> simp

theorem spans_bookedIncidents (log : List IncidentOp) :
    ((bookedIncidents log).filter fun i => i.kind = .serveDown).map
        (fun i => (i.start, i.endTs)) = spans .serve (incidentRows log) := by
  unfold bookedIncidents spans
  rw [List.filter_map, List.map_map]
  congr 1

theorem inOrder_trackAll (inputs : List IncidentInput)
    (increasing : inputs.Pairwise fun i j => i.now < j.now) (now : ℤ) :
    InOrder now (bookedIncidents (trackAll inputs).2) := by
  obtain ⟨done, h⟩ := exists_booked .serve inputs increasing
  have hpairs : (spans .serve (incidentRows (trackAll inputs).2)).Pairwise
      fun p q => p.2.getD now < q.1 := by
    rw [h.rows]
    unfold spansOf
    rw [List.pairwise_append]
    refine ⟨?_, ?_, ?_⟩
    · rw [List.pairwise_map]
      exact h.ordered
    · split <;> simp
    · intro p hp q hq
      obtain ⟨p', hp', rfl⟩ := List.mem_map.1 hp
      split at hq
      · next j j' rest hst =>
          rw [List.mem_singleton.1 hq]
          exact h.past p' hp' j (by rw [hst]; simp)
      · simp at hq
  rw [← spans_bookedIncidents, List.pairwise_map] at hpairs
  exact hpairs

/-- Over every run of the tracker in order of time: the open and close operations of a down
kind alternate; an outage is opened exactly at the second miss of a streak, with the time of
the first as its start; the outages that are over are disjoint, and each was closed with its
length. The uptime over the incidents of the run is, to five decimals, the share of the
window that no outage covers. -/
theorem down_incidents_and_uptime (inputs : List IncidentInput)
    (increasing : inputs.Pairwise fun i j => i.now < j.now) :
    (∀ k : DownKind,
      (Paired (isOpen k) (isClose k) (trackAll inputs).2 ∧
        Separated (isOpen k) (isClose k) (trackAll inputs).2) ∧
      (∀ pre i post, inputs = pre ++ i :: post → ∀ start detail,
        .opened k.kind start detail ∈ ((trackAll pre).1.step i).2 ↔
          ∃ j, streak k (pre ++ [i]) = [j, i] ∧ start = j.now ∧ detail = k.detail i) ∧
      ((trackAll inputs).2.filter (isClose k) =
          (closedSpans k (incidentRows (trackAll inputs).2)).map fun p =>
            .closed k.kind p.2 (p.2 - p.1)) ∧
      (closedSpans k (incidentRows (trackAll inputs).2)).Pairwise
        (fun p q => Disjoint (Set.Icc p.1 p.2) (Set.Icc q.1 q.2)) ∧
      ∀ p ∈ closedSpans k (incidentRows (trackAll inputs).2), 0 ≤ p.2 - p.1) ∧
    ∀ now firstSampleTs,
      WindowMeasured now firstSampleTs (bookedIncidents (trackAll inputs).2) 86400
        (uptime now firstSampleTs (bookedIncidents (trackAll inputs).2)).h24 ∧
      WindowMeasured now firstSampleTs (bookedIncidents (trackAll inputs).2) (7 * 86400)
        (uptime now firstSampleTs (bookedIncidents (trackAll inputs).2)).d7 := by
  refine ⟨?_, ?_⟩
  · intro k
    obtain ⟨done, h⟩ := exists_booked k inputs increasing
    have halternating := alternating_trackAll k inputs
    have hdisjoint : ∀ op, isOpen k op = true → isClose k op = false := by
      intro op hop
      cases op with
      | opened kind start detail => rfl
      | closed kind endTs duration => exact absurd hop Bool.false_ne_true
      | event kind ts subject detail key => rfl
    rw [closedSpans_of_booked h]
    refine ⟨⟨paired_of_pairedFrom halternating.paired,
      separated_of_separatedFrom hdisjoint halternating.separated⟩, ?_, h.closes, ?_, ?_⟩
    · intro pre i post _ start detail
      exact opened_mem_step_iff k pre i start detail
    · apply h.ordered.imp
      intro p q hpq
      rw [Set.disjoint_left]
      intro t hp hq
      have hle := hp.2
      have hge := hq.1
      omega
    · intro p hp
      have hlt := h.positive p hp
      omega
  · intro now firstSampleTs
    have hordered := inOrder_trackAll inputs increasing now
    exact ⟨windowMeasured_of_inOrder hordered _ _, windowMeasured_of_inOrder hordered _ _⟩

/-- A poll in which the gateway is up and no container or kernel report is read. -/
def servePollAt (now : ℤ) (up : Bool) : IncidentInput :=
  ⟨now, up, "timeout", true, "", [], []⟩

/-- Two misses, and an answer seven seconds after the first. -/
def shortOutage : List IncidentInput :=
  [servePollAt 0 false, servePollAt 5 false, servePollAt 7 true]

theorem short_outage_measured :
    closedSpans .serve (incidentRows (trackAll shortOutage).2) = [(0, 7)] ∧
      WindowMeasured 86400 0 (bookedIncidents (trackAll shortOutage).2) 86400
        (uptime 86400 0 (bookedIncidents (trackAll shortOutage).2)).h24 :=
  ⟨by decide, ((down_incidents_and_uptime shortOutage (by decide)).2 86400 0).1⟩

/-- Seven seconds of a day are 0.0081 percent; the share that is reported is rounded. -/
theorem uptime_not_exact :
    ¬ ∀ inputs : List IncidentInput, (inputs.Pairwise fun i j => i.now < j.now) →
      ∀ now firstSampleTs u,
        (uptime now firstSampleTs (bookedIncidents (trackAll inputs).2)).h24 = some u →
          (u : ℝ) = 1 - downShare now (max (now - 86400) firstSampleTs)
            (bookedIncidents (trackAll inputs).2) := by
  intro hall
  have hrows : bookedIncidents (trackAll shortOutage).2 =
      [⟨1, 0, some 7, .serveDown, "timeout"⟩] := by decide
  have hreported : (uptime 86400 0 (bookedIncidents (trackAll shortOutage).2)).h24 =
      some (99992 / 100000) := by
    rw [hrows]
    decide +kernel
  have hexact := hall shortOutage (by decide) 86400 0 _ hreported
  have hordered : InOrder 86400 (bookedIncidents (trackAll shortOutage).2) := by
    rw [hrows]
    simp [InOrder]
  rw [downShare_eq hordered, hrows] at hexact
  norm_num at hexact

end Lss.Analysis.Uptime
