import Lss.Library.AlertLog
import Lss.Library.Interval
import Lss.Model.Incidents

/-!
# Outages and the share of time the server was up

The tracker of one kind of outage is a function of the current streak of misses: the polls
since the last one that was answered. An outage is opened at the second miss of a streak,
back-dated to the first, and closed at the next poll that is answered. Over a run in order of
time the outages of one kind are therefore listed in order, each ending before the next one
starts, which is what makes the sum in the uptime arithmetic a measure.
-/

set_option autoImplicit false

namespace Lss.Analysis.Outages

open Lss.Library Lss.Library.AlertLog Lss.Library.Interval Lss.Model

/-- The two kinds of outage. -/
inductive DownKind where
  | serve
  | gate
deriving DecidableEq

namespace DownKind

def kind : DownKind → IncidentKind
  | serve => .serveDown
  | gate => .gateDown

/-- Whether the part was up at a poll. -/
def up : DownKind → IncidentInput → Bool
  | serve, i => i.serveUp
  | gate, i => i.gateUp

def detail : DownKind → IncidentInput → String
  | serve, i => i.serveDetail
  | gate, i => i.gateDetail

def tracker : DownKind → IncidentTracker → DownTracker
  | serve, t => t.serve
  | gate, t => t.gate

end DownKind

variable (k : DownKind)

/-! ## The streak of misses -/

/-- The misses since the last poll that was answered, oldest first. -/
def streak (inputs : List IncidentInput) : List IncidentInput :=
  (inputs.reverse.takeWhile fun i => !k.up i).reverse

theorem streak_concat (inputs : List IncidentInput) (i : IncidentInput) :
    streak k (inputs ++ [i]) = if k.up i then [] else streak k inputs ++ [i] := by
  unfold streak
  rw [List.reverse_append, List.reverse_singleton, List.singleton_append, List.takeWhile_cons]
  cases h : k.up i with
  | true => simp
  | false => simp

theorem mem_of_mem_streak {inputs : List IncidentInput} {i : IncidentInput}
    (h : i ∈ streak k inputs) : i ∈ inputs := by
  unfold streak at h
  rw [List.mem_reverse] at h
  have hrev := (List.takeWhile_sublist _).subset h
  exact List.mem_reverse.1 hrev

/-- The tracker that has seen a streak of misses. -/
def trackerOf (misses : List IncidentInput) : DownTracker where
  misses := min misses.length missesMax
  firstMiss := misses.head?.map IncidentInput.now
  openSince := if missesToOpen ≤ misses.length then misses.head?.map IncidentInput.now else none

/-- What a poll does to an outage, given the streak of misses before it. -/
def downOps (misses : List IncidentInput) (i : IncidentInput) : List IncidentOp :=
  match misses with
  | [] => []
  | [j] => if k.up i then [] else [.opened k.kind j.now (k.detail i)]
  | j :: _ :: _ => if k.up i then [.closed k.kind i.now (i.now - j.now)] else []

/-- One step of the tracker moves from the streak before the poll to the streak after it. -/
theorem step_trackerOf (misses : List IncidentInput) (i : IncidentInput) :
    (trackerOf misses).step k.kind i.now (k.up i) (k.detail i) =
      (trackerOf (if k.up i then [] else misses ++ [i]), downOps k misses i) := by
  cases hup : k.up i with
  | true =>
      unfold DownTracker.step
      rw [if_pos rfl, if_pos rfl]
      rcases misses with _ | ⟨j, _ | ⟨j', rest⟩⟩
      · simp [trackerOf, downOps, missesToOpen, missesMax]
      · simp [trackerOf, downOps, missesToOpen, missesMax, hup]
      · simp [trackerOf, downOps, missesToOpen, missesMax, hup]
  | false =>
      unfold DownTracker.step
      rcases misses with _ | ⟨j, _ | ⟨j', rest⟩⟩
      · simp [trackerOf, downOps, missesToOpen, missesMax]
      · simp [trackerOf, downOps, missesToOpen, missesMax, hup]
      · have hcount : min (min (rest.length + 1 + 1) missesMax + 1) missesMax =
            min (rest.length + 1 + 1 + 1) missesMax := by omega
        simp [trackerOf, downOps, missesToOpen, hup, hcount]

/-! ## The operations of one kind -/

/-- The kind an operation is about. -/
def opKind : IncidentOp → IncidentKind
  | .opened kind _ _ => kind
  | .closed kind _ _ => kind
  | .event kind _ _ _ _ => kind

def isOpen : IncidentOp → Bool
  | .opened kind _ _ => kind == k.kind
  | _ => false

def isClose : IncidentOp → Bool
  | .closed kind _ _ => kind == k.kind
  | _ => false

/-- The operations of one kind of outage. -/
def ofKind (op : IncidentOp) : Bool := opKind op == k.kind

theorem opKind_of_mem_containerStep {now : ℤ}
    {containers : List (String × ContainerState)}
    {seen : Std.ExtTreeMap String ContainerState} {op : IncidentOp}
    (h : op ∈ (Machine.run (containerStep now) seen containers).2) :
    opKind op = .containerRestart := by
  obtain ⟨pre, c, post, -, hop⟩ := Machine.mem_run _ h
  unfold containerStep at hop
  dsimp only at hop
  split at hop
  · simp at hop
  · split at hop
    · simp at hop
    · rw [List.mem_singleton.1 hop]
      rfl

theorem opKind_of_mem_downOps {misses : List IncidentInput} {i : IncidentInput}
    {op : IncidentOp} (h : op ∈ downOps k misses i) : opKind op = k.kind := by
  unfold downOps at h
  split at h
  · simp at h
  · split at h
    · simp at h
    · rw [List.mem_singleton.1 h]
      rfl
  · split at h
    · rw [List.mem_singleton.1 h]
      rfl
    · simp at h

/-- The state of the two outage trackers after a run. -/
theorem tracker_trackAll (inputs : List IncidentInput) :
    k.tracker (trackAll inputs).1 = trackerOf (streak k inputs) := by
  induction inputs using List.reverseRecOn with
  | nil => cases k <;> rfl
  | append_singleton inputs i ih =>
      rw [trackAll_concat, streak_concat]
      have hstep := step_trackerOf k (streak k inputs) i
      rw [← ih] at hstep
      have hfst := congrArg Prod.fst hstep
      cases k <;> exact hfst

/-- The operations of one kind that a poll causes. -/
theorem filter_step (inputs : List IncidentInput) (i : IncidentInput) :
    ((trackAll inputs).1.step i).2.filter (ofKind k) = downOps k (streak k inputs) i := by
  have hown : ∀ j : DownKind, ((j.tracker (trackAll inputs).1).step j.kind i.now (j.up i)
      (j.detail i)).2 = downOps j (streak j inputs) i := by
    intro j
    rw [tracker_trackAll, step_trackerOf]
  have hkeep : (downOps k (streak k inputs) i).filter (ofKind k) =
      downOps k (streak k inputs) i :=
    List.filter_eq_self.2 fun op hop => by
      unfold ofKind
      rw [opKind_of_mem_downOps k hop]
      exact beq_self_eq_true _
  have hother : ∀ j : DownKind, j ≠ k → (downOps j (streak j inputs) i).filter (ofKind k) = [] := by
    intro j hj
    rw [List.filter_eq_nil_iff]
    intro op hop
    unfold ofKind
    rw [opKind_of_mem_downOps j hop]
    revert hj
    cases j <;> cases k <;> decide
  have hcontainers : (Machine.run (containerStep i.now) (trackAll inputs).1.containers
      i.containers).2.filter (ofKind k) = [] := by
    rw [List.filter_eq_nil_iff]
    intro op hop
    unfold ofKind
    rw [opKind_of_mem_containerStep hop]
    cases k <;> decide
  have hxids : (i.xids.map xidOp).filter (ofKind k) = [] := by
    rw [List.filter_eq_nil_iff]
    intro op hop
    obtain ⟨x, -, rfl⟩ := List.mem_map.1 hop
    cases k <;> exact Bool.false_ne_true
  unfold IncidentTracker.step
  dsimp only
  rw [List.filter_append, List.filter_append, List.filter_append, hcontainers, hxids]
  have hserve := hown .serve
  have hgate := hown .gate
  simp only [DownKind.tracker, DownKind.kind, DownKind.up, DownKind.detail] at hserve hgate
  rw [hserve, hgate]
  cases k with
  | serve => rw [hkeep, hother .gate (by decide)]; simp
  | gate => rw [hkeep, hother .serve (by decide)]; simp

/-! ## Where an outage is opened -/

theorem ofKind_opened (start : ℤ) (detail : String) :
    ofKind k (.opened k.kind start detail) = true :=
  beq_self_eq_true _

/-- A poll opens an outage exactly when it is the second miss of its streak. -/
theorem opened_mem_step_iff (inputs : List IncidentInput) (i : IncidentInput) (start : ℤ)
    (detail : String) :
    .opened k.kind start detail ∈ ((trackAll inputs).1.step i).2 ↔
      ∃ j, streak k (inputs ++ [i]) = [j, i] ∧ start = j.now ∧ detail = k.detail i := by
  have hmem : .opened k.kind start detail ∈ ((trackAll inputs).1.step i).2 ↔
      .opened k.kind start detail ∈ downOps k (streak k inputs) i := by
    rw [← filter_step, List.mem_filter, ofKind_opened]
    simp
  rw [hmem, streak_concat]
  cases hup : k.up i with
  | true =>
      rcases streak k inputs with _ | ⟨j, _ | ⟨j', rest⟩⟩ <;> simp [downOps, hup]
  | false =>
      rcases streak k inputs with _ | ⟨j, _ | ⟨j', rest⟩⟩
      · simp [downOps]
      · simp [downOps, hup]
      · simp [downOps, hup]

/-! ## Open and close operations alternate -/

/-- An outage is open exactly from the second miss of a streak on. -/
structure Alternating (inputs : List IncidentInput) (log : List IncidentOp) : Prop where
  outstanding : outstandingFrom (isOpen k) (isClose k) false log =
    decide (missesToOpen ≤ (streak k inputs).length)
  paired : PairedFrom (isOpen k) (isClose k) false log
  separated : SeparatedFrom (isOpen k) (isClose k) false log

theorem isOpen_eq (op : IncidentOp) : isOpen k op = (ofKind k op && isOpen k (id op)) := by
  cases op <;> simp [isOpen, ofKind, opKind]

theorem isClose_eq (op : IncidentOp) : isClose k op = (ofKind k op && isClose k (id op)) := by
  cases op <;> simp [isClose, ofKind, opKind]

theorem alternating_trackAll (inputs : List IncidentInput) :
    Alternating k inputs (trackAll inputs).2 := by
  induction inputs using List.reverseRecOn with
  | nil => exact ⟨by cases k <;> rfl, trivial, trivial⟩
  | append_singleton inputs i ih =>
      have hops := filter_step k inputs i
      rw [trackAll_concat]
      obtain ⟨hout, hpaired, hseparated⟩ := ih
      -- the operations of the other kinds do not count
      have hproject := outstandingFrom_project (isOpen_eq k) (isClose_eq k)
        (decide (missesToOpen ≤ (streak k inputs).length))
        ((trackAll inputs).1.step i).2
      have hpproject := pairedFrom_project (isOpen_eq k) (isClose_eq k)
        (decide (missesToOpen ≤ (streak k inputs).length))
        ((trackAll inputs).1.step i).2
      have hsproject := separatedFrom_project (isOpen_eq k) (isClose_eq k)
        (decide (missesToOpen ≤ (streak k inputs).length))
        ((trackAll inputs).1.step i).2
      rw [hops, List.map_id] at hproject hpproject hsproject
      refine ⟨?_, ?_, ?_⟩
      · rw [outstandingFrom_append, hout, ← hproject, streak_concat]
        cases hup : k.up i with
        | true =>
            rcases streak k inputs with _ | ⟨j, _ | ⟨j', rest⟩⟩ <;>
              simp [downOps, hup, outstandingFrom, missesToOpen, isClose]
        | false =>
            rcases streak k inputs with _ | ⟨j, _ | ⟨j', rest⟩⟩ <;>
              simp [downOps, hup, outstandingFrom, missesToOpen, isOpen, isClose]
      · rw [pairedFrom_append, hout, ← hpproject]
        refine ⟨hpaired, ?_⟩
        cases hup : k.up i with
        | true =>
            rcases streak k inputs with _ | ⟨j, _ | ⟨j', rest⟩⟩ <;>
              simp [downOps, hup, PairedFrom, missesToOpen]
        | false =>
            rcases streak k inputs with _ | ⟨j, _ | ⟨j', rest⟩⟩ <;>
              simp [downOps, hup, PairedFrom, isClose]
      · rw [separatedFrom_append, hout, ← hsproject]
        refine ⟨hseparated, ?_⟩
        cases hup : k.up i with
        | true =>
            rcases streak k inputs with _ | ⟨j, _ | ⟨j', rest⟩⟩ <;>
              simp [downOps, hup, SeparatedFrom, isOpen]
        | false =>
            rcases streak k inputs with _ | ⟨j, _ | ⟨j', rest⟩⟩ <;>
              simp [downOps, hup, SeparatedFrom, missesToOpen]

/-! ## The outages in the table of incidents -/

/-- The start and the end of the incidents of one kind, in the order of the table. -/
def spans (rows : List IncidentRow) : List (ℤ × Option ℤ) :=
  (rows.filter fun r => r.kind == k.kind).map fun r => (r.start, r.endTs)

/-- What an operation does to the spans of one kind. -/
def bookSpan (spans : List (ℤ × Option ℤ)) (op : IncidentOp) : List (ℤ × Option ℤ) :=
  match op with
  | .opened _ start _ => spans ++ [(start, none)]
  | .closed _ endTs _ => spans.map fun p => (p.1, some (p.2.getD endTs))
  | .event _ _ _ _ _ => spans

theorem spans_append (rows rows' : List IncidentRow) :
    spans k (rows ++ rows') = spans k rows ++ spans k rows' := by
  unfold spans
  rw [List.filter_append, List.map_append]

theorem spans_closeIncident_self (rows : List IncidentRow) (endTs : ℤ) :
    spans k (closeIncident rows k.kind endTs) =
      (spans k rows).map fun p => (p.1, some (p.2.getD endTs)) := by
  induction rows with
  | nil => rfl
  | cons r rows ih =>
      have hcons : ∀ (x : IncidentRow) (l : List IncidentRow),
          spans k (x :: l) = spans k [x] ++ spans k l := fun x l => spans_append k [x] l
      unfold closeIncident at ih ⊢
      rw [List.map_cons, hcons, hcons r, List.map_append, ih]
      congr 1
      by_cases hk : r.kind = k.kind
      · cases he : r.endTs with
        | none => simp [spans, hk, he]
        | some e => simp [spans, hk, he]
      · simp [spans, hk]

theorem spans_closeIncident_of_ne (rows : List IncidentRow) {kind : IncidentKind}
    (h : kind ≠ k.kind) (endTs : ℤ) : spans k (closeIncident rows kind endTs) = spans k rows := by
  induction rows with
  | nil => rfl
  | cons r rows ih =>
      have hcons : ∀ (x : IncidentRow) (l : List IncidentRow),
          spans k (x :: l) = spans k [x] ++ spans k l := fun x l => spans_append k [x] l
      unfold closeIncident at ih ⊢
      rw [List.map_cons, hcons, hcons r, ih]
      congr 1
      by_cases hr : r.kind = kind ∧ r.endTs = none
      · have hne : r.kind ≠ k.kind := by
          rw [hr.1]
          exact h
        rw [if_pos hr]
        simp [spans, hne]
      · rw [if_neg hr]

theorem spans_eventIncident_of_ne (rows : List IncidentRow) {kind : IncidentKind}
    (h : kind ≠ k.kind) (ts : ℤ) (detail : String) (key : Option String) :
    spans k (eventIncident rows kind ts detail key) = spans k rows := by
  unfold eventIncident
  split
  · rfl
  · rw [spans_append]
    simp [spans, h]

/-- Booking an operation that is not an event of the kind changes the spans of the kind only
when the operation is of the kind. -/
theorem spans_bookOp (rows : List IncidentRow) (op : IncidentOp)
    (h : ∀ ts subject detail key, op ≠ .event k.kind ts subject detail key) :
    spans k (bookOp rows op) =
      if ofKind k op then bookSpan (spans k rows) op else spans k rows := by
  cases op with
  | opened kind start detail =>
      by_cases hk : kind = k.kind
      · subst hk
        simp [bookOp, openIncident, spans, ofKind, opKind, bookSpan]
      · simp [bookOp, openIncident, spans, ofKind, opKind, hk]
  | closed kind endTs duration =>
      by_cases hk : kind = k.kind
      · subst hk
        simp [bookOp, ofKind, opKind, bookSpan, spans_closeIncident_self]
      · simp [bookOp, ofKind, opKind, hk, spans_closeIncident_of_ne k rows hk]
  | event kind ts subject detail key =>
      have hk : kind ≠ k.kind := fun hk => h ts subject detail key (hk ▸ rfl)
      simp [bookOp, ofKind, opKind, hk, spans_eventIncident_of_ne k rows hk]

/-- Of the operations of a poll only those of the kind change the spans of the kind. -/
theorem spans_foldl_bookOp (ops : List IncidentOp) (rows : List IncidentRow)
    (h : ∀ op ∈ ops, ∀ ts subject detail key, op ≠ .event k.kind ts subject detail key) :
    spans k (ops.foldl bookOp rows) = (ops.filter (ofKind k)).foldl bookSpan (spans k rows) := by
  induction ops generalizing rows with
  | nil => rfl
  | cons op ops ih =>
      have hop := spans_bookOp k rows op (h op (by simp))
      rw [List.foldl_cons, ih _ fun op' hop' => h op' (by simp [hop']), hop]
      cases hk : ofKind k op with
      | true => rw [List.filter_cons_of_pos hk]; rfl
      | false => rw [List.filter_cons_of_neg (by simp [hk])]; rfl

/-- The spans of a kind that a run has booked, an outage still open at the end. -/
def spansOf (done : List (ℤ × ℤ)) (misses : List IncidentInput) : List (ℤ × Option ℤ) :=
  done.map (fun p => (p.1, some p.2)) ++
    match misses with
    | j :: _ :: _ => [(j.now, none)]
    | _ => []

/-- What a run has booked of one kind: the outages that are over, in order of time and each
of positive length, with the operations that closed them, and the one that is still open. -/
structure Booked (inputs : List IncidentInput) (log : List IncidentOp) (done : List (ℤ × ℤ)) :
    Prop where
  rows : spans k (incidentRows log) = spansOf done (streak k inputs)
  closes : log.filter (isClose k) = done.map fun p => .closed k.kind p.2 (p.2 - p.1)
  ordered : done.Pairwise fun p q => p.2 < q.1
  positive : ∀ p ∈ done, p.1 < p.2
  past : ∀ p ∈ done, ∀ i ∈ streak k inputs, p.2 < i.now
  reached : ∀ p ∈ done, ∃ i ∈ inputs, p.2 = i.now

theorem not_event_of_mem_step (inputs : List IncidentInput) (i : IncidentInput) :
    ∀ op ∈ ((trackAll inputs).1.step i).2, ∀ ts subject detail key,
      op ≠ .event k.kind ts subject detail key := by
  intro op hop ts subject detail key heq
  have hmem : op ∈ downOps k (streak k inputs) i := by
    rw [← filter_step, List.mem_filter]
    refine ⟨hop, ?_⟩
    rw [heq]
    exact beq_self_eq_true _
  rw [heq] at hmem
  unfold downOps at hmem
  split at hmem
  · simp at hmem
  · split at hmem <;> simp at hmem
  · split at hmem <;> simp at hmem

theorem filter_isClose_step (inputs : List IncidentInput) (i : IncidentInput) :
    ((trackAll inputs).1.step i).2.filter (isClose k) =
      (downOps k (streak k inputs) i).filter (isClose k) := by
  rw [← filter_step, List.filter_filter]
  apply List.filter_congr
  intro op _
  exact (isClose_eq k op).trans (Bool.and_comm _ _)

/-- A poll that is answered ends the outage that is open. -/
theorem Booked.answered {inputs : List IncidentInput} {log : List IncidentOp}
    {done : List (ℤ × ℤ)} {i : IncidentInput} {j j' : IncidentInput} {rest : List IncidentInput}
    (h : Booked k inputs log done) (hstreak : streak k inputs = j :: j' :: rest)
    (later : ∀ x ∈ inputs, x.now < i.now) :
    (done ++ [(j.now, i.now)]).Pairwise (fun p q => p.2 < q.1) ∧
      (∀ p ∈ done ++ [(j.now, i.now)], p.1 < p.2) ∧
      ∀ p ∈ done ++ [(j.now, i.now)], ∃ x ∈ inputs ++ [i], p.2 = x.now := by
  have hj : j ∈ streak k inputs := by rw [hstreak]; simp
  refine ⟨?_, ?_, ?_⟩
  · rw [List.pairwise_append]
    refine ⟨h.ordered, List.pairwise_singleton _ _, ?_⟩
    intro p hp q hq
    rw [List.mem_singleton.1 hq]
    exact h.past p hp j hj
  · intro p hp
    rcases List.mem_append.1 hp with hp | hp
    · exact h.positive p hp
    · rw [List.mem_singleton.1 hp]
      exact later j (mem_of_mem_streak k hj)
  · intro p hp
    rcases List.mem_append.1 hp with hp | hp
    · obtain ⟨x, hx, hpx⟩ := h.reached p hp
      exact ⟨x, by simp [hx], hpx⟩
    · rw [List.mem_singleton.1 hp]
      exact ⟨i, by simp, rfl⟩

/-- Over a run in order of time the outages of a kind are booked in order. -/
theorem exists_booked (inputs : List IncidentInput)
    (increasing : inputs.Pairwise fun i j => i.now < j.now) :
    ∃ done, Booked k inputs (trackAll inputs).2 done := by
  induction inputs using List.reverseRecOn with
  | nil => exact ⟨[], rfl, rfl, List.Pairwise.nil, by simp, by simp, by simp⟩
  | append_singleton inputs i ih =>
      rw [List.pairwise_append] at increasing
      obtain ⟨hpre, -, hlast⟩ := increasing
      have later : ∀ x ∈ inputs, x.now < i.now := fun x hx => hlast x hx i (by simp)
      obtain ⟨done, h⟩ := ih hpre
      have hops := filter_step k inputs i
      have hcloses := filter_isClose_step k inputs i
      have hnot := not_event_of_mem_step k inputs i
      have hrows := spans_foldl_bookOp k _ (incidentRows (trackAll inputs).2) hnot
      rw [hops, h.rows] at hrows
      rw [trackAll_concat]
      unfold incidentRows at hrows
      have hpast : ∀ p ∈ done, p.2 < i.now := by
        intro p hp
        obtain ⟨x, hx, hpx⟩ := h.reached p hp
        rw [hpx]
        exact later x hx
      have hreached : ∀ p ∈ done, ∃ x ∈ inputs ++ [i], p.2 = x.now := by
        intro p hp
        obtain ⟨x, hx, hpx⟩ := h.reached p hp
        exact ⟨x, by simp [hx], hpx⟩
      cases hup : k.up i with
      | true =>
          have hstreak : streak k (inputs ++ [i]) = [] := by rw [streak_concat, if_pos hup]
          rcases hst : streak k inputs with _ | ⟨j, _ | ⟨j', rest⟩⟩
          · refine ⟨done, ?_, ?_, h.ordered, h.positive, by simp [hstreak], hreached⟩
            · rw [incidentRows, List.foldl_append, hrows, hst, hstreak]
              simp [downOps, spansOf]
            · rw [List.filter_append, h.closes, hcloses, hst]
              simp [downOps]
          · refine ⟨done, ?_, ?_, h.ordered, h.positive, by simp [hstreak], hreached⟩
            · rw [incidentRows, List.foldl_append, hrows, hst, hstreak]
              simp [downOps, spansOf, hup]
            · rw [List.filter_append, h.closes, hcloses, hst]
              simp [downOps, hup]
          · obtain ⟨hordered, hpositive, hreached'⟩ := h.answered k hst later
            refine ⟨done ++ [(j.now, i.now)], ?_, ?_, hordered, hpositive, by simp [hstreak],
              hreached'⟩
            · rw [incidentRows, List.foldl_append, hrows, hst, hstreak]
              simp [downOps, spansOf, hup, bookSpan]
            · rw [List.filter_append, h.closes, hcloses, hst]
              simp [downOps, hup, isClose]
      | false =>
          have hstreak : streak k (inputs ++ [i]) = streak k inputs ++ [i] := by
            rw [streak_concat, if_neg (by simp [hup])]
          have hpast' : ∀ p ∈ done, ∀ x ∈ streak k (inputs ++ [i]), p.2 < x.now := by
            intro p hp x hx
            rw [hstreak, List.mem_append, List.mem_singleton] at hx
            rcases hx with hx | hx
            · exact h.past p hp x hx
            · rw [hx]
              exact hpast p hp
          refine ⟨done, ?_, ?_, h.ordered, h.positive, hpast', hreached⟩
          · rw [incidentRows, List.foldl_append, hrows, hstreak]
            rcases streak k inputs with _ | ⟨j, _ | ⟨j', rest⟩⟩
            · simp [downOps, spansOf]
            · simp [downOps, spansOf, hup, bookSpan]
            · simp [downOps, spansOf, hup]
          · rw [List.filter_append, h.closes, hcloses]
            rcases streak k inputs with _ | ⟨j, _ | ⟨j', rest⟩⟩
            · simp [downOps]
            · simp [downOps, hup, isClose]
            · simp [downOps, hup]

end Lss.Analysis.Outages
