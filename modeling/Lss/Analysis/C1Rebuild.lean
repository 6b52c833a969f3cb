import Lss.Model.ProbeRepair
import Lss.Analysis.FreshLoadouts

/-!
# The rebuilt figures of a loadout

While the collector runs, a probe counts for the loadout that serves when it is taken. The
repair counts all probes since the loadout was first seen, whoever served. The two agree exactly
when no other loadout had a reading since.
-/

set_option autoImplicit false

namespace Lss.Analysis.C1Rebuild

open Lss.Model

/-! ## Lists of rows -/

theorem lastN_append {α : Type} (n : ℕ) (xs ys : List α) :
    lastN n (lastN n xs ++ ys) = lastN n (xs ++ ys) := by
  unfold lastN
  rw [List.length_append, List.length_drop, List.length_append]
  by_cases h : xs.length ≤ n
  · rw [show xs.length - n = 0 by omega, List.drop_zero, Nat.sub_zero]
  · have hdrop : xs.drop (xs.length - n) ++ ys = (xs ++ ys).drop (xs.length - n) := by
      rw [List.drop_append_of_le_length (by omega)]
    rw [hdrop, List.drop_drop]
    congr 1
    omega

/-- A list through its rows. -/
theorem filterMap_rows {α β : Type} (f : α → Option β) (xs : List α) :
    xs.filterMap f = (List.range xs.length).filterMap fun i => xs[i]?.bind f := by
  induction xs with
  | nil => rfl
  | cons x xs ih =>
      rw [List.length_cons, List.range_succ_eq_map, List.filterMap_cons, List.filterMap_cons,
        List.filterMap_map, ih]
      rfl

/-- Rows in order are the rows of a range that are among them. -/
theorem rows_eq_filter {rows : List ℕ} {n : ℕ} (hsorted : rows.Pairwise (· < ·))
    (hlt : ∀ i ∈ rows, i < n) : rows = (List.range n).filter (· ∈ rows) := by
  have hrange : ((List.range n).filter (· ∈ rows)).Pairwise (· < ·) :=
    List.Pairwise.filter _ List.pairwise_lt_range
  apply List.Perm.eq_of_pairwise (fun a b _ _ hab hba => by omega) hsorted hrange
  rw [List.perm_ext_iff_of_nodup (hsorted.imp fun h => Nat.ne_of_lt h)
    (hrange.imp fun h => Nat.ne_of_lt h)]
  intro i
  rw [List.mem_filter, List.mem_range, decide_eq_true_eq]
  constructor
  · intro hi
    exact ⟨hlt i hi, hi⟩
  · intro hi
    exact hi.2

/-- Of two conditions, one within the other, that hold equally often, both hold together. -/
theorem of_countP_eq {α : Type} {p q : α → Bool} {xs : List α}
    (hsub : ∀ x ∈ xs, q x = true → p x = true) (heq : xs.countP p = xs.countP q) :
    ∀ x ∈ xs, p x = true → q x = true := by
  have hinside : xs.filter q = (xs.filter p).filter q := by
    rw [List.filter_filter]
    apply List.filter_congr
    intro x hx
    cases hq : q x with
    | false => simp
    | true => simp [hsub x hx hq]
  have hsublist : (xs.filter q).Sublist (xs.filter p) := by
    rw [hinside]
    exact List.filter_sublist
  have hlength : (xs.filter q).length = (xs.filter p).length := by
    rw [← List.countP_eq_length_filter, ← List.countP_eq_length_filter, heq]
  have hsame := hsublist.eq_of_length hlength
  intro x hx hp
  have hmem : x ∈ xs.filter q := by
    rw [hsame]
    exact List.mem_filter.2 ⟨hx, hp⟩
  exact (List.mem_filter.1 hmem).2

/-! ## The figures -/

/-- The figures of single-stream readings: how many, their sum, the best and the newest. -/
def c1Figures (acc : LoadoutAcc) : ℕ × ℚ × ℚ × List ℚ :=
  (acc.c1Probes, acc.c1Sum, acc.c1Best, acc.c1Samples)

/-- The figures of a list of readings. -/
def figuresOf (readings : List ℚ) : ℕ × ℚ × ℚ × List ℚ :=
  (readings.length, readings.sum, readings.foldl max 0, lastN c1SamplesKept readings)

theorem observeProbe_figures {acc : LoadoutAcc} {readings : List ℚ}
    (h : c1Figures acc = figuresOf readings) (p : ProbeRecord) :
    c1Figures (acc.observeProbe p) = figuresOf (readings ++ p.reading.toList) := by
  unfold LoadoutAcc.observeProbe ProbeRecord.reading
  cases hreading : p.isReading with
  | false =>
      cases p.decodeTokS <;> simpa using h
  | true =>
      cases hvalue : p.decodeTokS with
      | none => simpa using h
      | some v =>
          unfold c1Figures figuresOf at h
          simp only [Prod.mk.injEq] at h
          obtain ⟨hcount, hsum, hbest, hsamples⟩ := h
          unfold c1Figures figuresOf
          simp only [hcount, hsum, hbest, hsamples, if_true, Option.toList_some,
            List.length_append, List.length_singleton, List.sum_append, List.sum_singleton,
            List.foldl_append, List.foldl_cons, List.foldl_nil, lastN_append]

/-- Observing probes one by one. -/
theorem foldl_observeProbe_figures (probes : List ProbeRecord) {acc : LoadoutAcc}
    {readings : List ℚ} (h : c1Figures acc = figuresOf readings) :
    c1Figures (probes.foldl LoadoutAcc.observeProbe acc) =
      figuresOf (readings ++ probes.filterMap ProbeRecord.reading) := by
  induction probes generalizing acc readings with
  | nil => simpa using h
  | cons p probes ih =>
      rw [List.foldl_cons, ih (observeProbe_figures h p), List.append_assoc]
      congr 2
      rw [List.filterMap_cons]
      cases p.reading <;> rfl

theorem observed_figures (probes : List ProbeRecord) :
    c1Figures (probes.foldl LoadoutAcc.observeProbe {}) =
      figuresOf (probes.filterMap ProbeRecord.reading) :=
  foldl_observeProbe_figures probes (show c1Figures {} = figuresOf [] from rfl)

theorem rebuildC1_figures (acc : LoadoutAcc) (probes : List ProbeRecord) :
    c1Figures (acc.rebuildC1 probes) = figuresOf (probes.filterMap ProbeRecord.reading) := by
  have hreadings : (probes.filter ProbeRecord.isReading).filterMap ProbeRecord.decodeTokS =
      probes.filterMap ProbeRecord.reading := by
    induction probes with
    | nil => rfl
    | cons p probes ih =>
        rw [List.filter_cons, List.filterMap_cons (f := ProbeRecord.reading)]
        unfold ProbeRecord.reading
        cases p.isReading with
        | false => exact ih
        | true =>
            simp only [if_true, List.filterMap_cons]
            cases p.decodeTokS with
            | none => exact ih
            | some v => exact congrArg (v :: ·) ih
  unfold LoadoutAcc.rebuildC1 c1Figures figuresOf
  rw [hreadings]

/-! ## The table of loadouts -/

/-- Every loadout is stored once. -/
def Unique (table : LoadoutTable) : Prop := (table.map fun r => r.identity.id).Nodup

theorem save_ids (table : LoadoutTable) (id : LoadoutIdentity) (acc : LoadoutAcc)
    (firstSeen : ℤ) : (table.save id acc firstSeen).map (fun r => r.identity.id) =
      if table.any fun r => r.identity.id = id.id then table.map fun r => r.identity.id
      else table.map (fun r => r.identity.id) ++ [id.id] := by
  unfold LoadoutTable.save
  dsimp only
  split
  · rw [List.map_map]
    apply List.map_congr_left
    intro r _
    show (if r.identity.id = id.id then _ else r : LoadoutRow).identity.id = r.identity.id
    split <;> rfl
  · rw [List.map_append]
    rfl

theorem unique_save {table : LoadoutTable} (h : Unique table) (id : LoadoutIdentity)
    (acc : LoadoutAcc) (firstSeen : ℤ) : Unique (table.save id acc firstSeen) := by
  unfold Unique
  rw [save_ids]
  split
  · exact h
  · rename_i hnew
    apply List.Nodup.append h (List.nodup_singleton _)
    intro other hmem hsame
    rw [List.mem_singleton.1 hsame] at hmem
    obtain ⟨r, hr, heq⟩ := List.mem_map.1 hmem
    exact hnew (List.any_eq_true.2 ⟨r, hr, by simpa using heq⟩)

theorem load_save_self {table : LoadoutTable} {id : LoadoutIdentity} (acc : LoadoutAcc)
    (firstSeen : ℤ) (h : id.id ∈ table.map fun r => r.identity.id) :
    ((table.save id acc firstSeen).load id.id).map Prod.fst = some acc := by
  have hstored : (table.any fun r => r.identity.id = id.id) = true := by
    obtain ⟨r, hr, heq⟩ := List.mem_map.1 h
    exact List.any_eq_true.2 ⟨r, hr, by simpa using heq⟩
  unfold LoadoutTable.save LoadoutTable.load
  dsimp only
  rw [if_pos hstored]
  clear hstored
  induction table with
  | nil => cases h
  | cons r table ih =>
      rw [List.map_cons]
      by_cases hid : r.identity.id = id.id
      · rw [if_pos hid, List.find?_cons_of_pos (by simpa using hid)]
        rfl
      · rw [if_neg hid, List.find?_cons_of_neg (by simpa using hid)]
        apply ih
        rw [List.map_cons, List.mem_cons] at h
        exact h.resolve_left fun heq => hid heq.symm

/-- After the loadouts of some rows were rebuilt, each of them holds its rebuilt figures. -/
theorem load_rebuildLoadouts (probes : List ProbeRecord) {rows : List LoadoutRow}
    (hrows : Unique rows) {table : LoadoutTable}
    (hstored : ∀ r ∈ rows, r.identity.id ∈ table.map fun t => t.identity.id) {r : LoadoutRow}
    (hr : r ∈ rows) : ((rebuildLoadouts probes table rows).load r.identity.id).map Prod.fst =
      some (r.acc.rebuildC1 (probesFrom probes r.firstSeen)) := by
  unfold rebuildLoadouts
  induction rows generalizing table with
  | nil => cases hr
  | cons s rows ih =>
      rw [List.foldl_cons]
      obtain ⟨hother, hrest⟩ := List.nodup_cons.1 hrows
      obtain heq | hmem := List.mem_cons.1 hr
      · -- the later rows are other loadouts
        rw [heq]
        have hkeep : ∀ (later : List LoadoutRow) (table : LoadoutTable),
            (∀ t ∈ later, t.identity.id ≠ s.identity.id) →
            (later.foldl (fun table r => table.save r.identity
              (r.acc.rebuildC1 (probesFrom probes r.firstSeen)) r.firstSeen) table).load
                s.identity.id = table.load s.identity.id := by
          intro later
          induction later with
          | nil => intro table _; rfl
          | cons t later ih =>
              intro table hne
              rw [List.foldl_cons, ih _ fun u hu => hne u (List.mem_cons_of_mem _ hu)]
              exact FreshLoadouts.load_save_of_ne _ _ _ _ (hne t List.mem_cons_self)
        rw [hkeep rows _ fun t ht heq => hother (List.mem_map.2 ⟨t, ht, heq⟩)]
        exact load_save_self _ _ (hstored s List.mem_cons_self)
      · apply ih hrest _ hmem
        intro t ht
        rw [save_ids]
        split
        · exact hstored t (List.mem_cons_of_mem _ ht)
        · exact List.mem_append_left _ (hstored t (List.mem_cons_of_mem _ ht))

theorem recent_unique {table : LoadoutTable} (h : Unique table) (limit : ℕ) :
    Unique (table.recent limit) := by
  unfold Unique LoadoutTable.recent
  rw [List.map_take]
  apply List.Nodup.sublist (List.take_sublist _ _)
  exact ((List.perm_insertionSort _ table).map _).nodup_iff.2 h

theorem mem_of_recent {table : LoadoutTable} {limit : ℕ} {r : LoadoutRow}
    (h : r ∈ table.recent limit) : r ∈ table :=
  (List.mem_insertionSort _).1 (List.mem_of_mem_take h)

theorem unique_onSample {st : Loadouts × LoadoutTable} (h : Unique st.2) (p : Poll) :
    Unique (Loadouts.onSample st p).2 := by
  have hswitch : ∀ (l : Loadouts) (id : LoadoutIdentity) (seen : Seen),
      Unique (l.switchTo st.2 p.records id seen p.sample.ts).2 := by
    intro l id seen
    unfold Loadouts.switchTo
    cases l.current.filter fun c => c.id.id = id.id with
    | some cur => exact h
    | none =>
        cases l.current with
        | none => exact unique_save h _ _ _
        | some old => exact unique_save (unique_save h _ _ _) _ _ _
  have hfollow : ∀ l : Loadouts, Unique (l.follow st.2 p).2 := by
    intro l
    unfold Loadouts.follow
    cases seenAs p.sample with
    | none => exact h
    | some seen =>
        dsimp only
        split
        · cases p.identify seen.name with
          | none => exact h
          | some id => exact hswitch l id seen
        · exact h
  have hadd : ∀ (l : Loadouts) (table : LoadoutTable), Unique table →
      Unique (l.addSample table p.sample).2 := by
    intro l table htable
    unfold Loadouts.addSample
    cases l.current with
    | none => exact htable
    | some c =>
        dsimp only
        split
        · exact unique_save htable _ _ _
        · exact htable
  unfold Loadouts.onSample
  exact hadd _ _ (hfollow _)

theorem unique_repair {st : ProbeState} (h : Unique st.table) :
    Unique st.repairBurstProbes.table := by
  unfold ProbeState.repairBurstProbes
  dsimp only
  split
  · exact h
  · have hrebuild : ∀ (probes : List ProbeRecord) (rows : List LoadoutRow) (table : LoadoutTable),
        Unique table → Unique (rebuildLoadouts probes table rows) := by
      intro probes rows
      induction rows with
      | nil => intro table htable; exact htable
      | cons r rows ih =>
          intro table htable
          exact ih _ (unique_save htable _ _ _)
    exact hrebuild _ _ _ h

theorem unique_run {st : ProbeState} (h : Unique st.table) (events : List ProbeEvent) :
    Unique (st.run events).table := by
  unfold ProbeState.run
  induction events generalizing st with
  | nil => exact h
  | cons event events ih =>
      rw [List.foldl_cons]
      apply ih
      cases event with
      | turn results p => exact unique_onSample h _
      | restart => exact unique_repair h

/-! ## Whose probe it was -/

/-- The stored rows a turn attributes to the loadout that serves after its poll. -/
def attributedRows (st : ProbeState) : ProbeEvent → List (ℕ × String)
  | .turn results p =>
    match (st.turn results p).loadouts.current with
    | some c => (List.range results.length).map fun i => (st.probes.length + i, c.id.id)
    | none => []
  | .restart => []

/-- The rows attributed to loadouts in a run, in the order of the attributions. -/
def attribution (st : ProbeState) : List ProbeEvent → List (ℕ × String)
  | [] => []
  | event :: events => attributedRows st event ++ attribution (st.step event) events

/-- The rows that were attributed to one loadout. -/
def rowsOf (id : String) (rows : List (ℕ × String)) : List ℕ :=
  (rows.filter fun a => a.2 = id).map Prod.fst

theorem repaired_ts (st : ProbeState) :
    st.repairBurstProbes.probes.map ProbeRecord.ts = st.probes.map ProbeRecord.ts := by
  have hmark : ∀ (typical : ℚ) (bad : List (ℤ × ℚ)) (probes : List ProbeRecord),
      (bad.foldl (markBurst typical) probes).map ProbeRecord.ts = probes.map ProbeRecord.ts := by
    intro typical bad
    induction bad with
    | nil => intro probes; rfl
    | cons b bad ih =>
        intro probes
        rw [List.foldl_cons, ih]
        unfold markBurst
        rw [List.map_map]
        apply List.map_congr_left
        intro p _
        show (if p.ts = b.1 then _ else p : ProbeRecord).ts = p.ts
        split <;> rfl
  unfold ProbeState.repairBurstProbes
  dsimp only
  split
  · rfl
  · exact hmark _ _ _

theorem repaired_length (st : ProbeState) :
    st.repairBurstProbes.probes.length = st.probes.length := by
  have h := congrArg List.length (repaired_ts st)
  simpa using h

theorem step_length_le (st : ProbeState) (event : ProbeEvent) :
    st.probes.length ≤ (st.step event).probes.length := by
  cases event with
  | turn results p =>
      show st.probes.length ≤ (st.probes ++ results).length
      rw [List.length_append]
      omega
  | restart => exact (repaired_length st).ge

theorem attributedRows_bounds {st : ProbeState} {event : ProbeEvent} {a : ℕ × String}
    (h : a ∈ attributedRows st event) :
    st.probes.length ≤ a.1 ∧ a.1 < (st.step event).probes.length := by
  cases event with
  | turn results p =>
      have hlength : (st.step (.turn results p)).probes.length =
          st.probes.length + results.length := List.length_append
      unfold attributedRows at h
      dsimp only at h
      split at h
      · obtain ⟨i, hi, rfl⟩ := List.mem_map.1 h
        rw [List.mem_range] at hi
        rw [hlength]
        dsimp only
        omega
      · cases h
  | restart => cases h

theorem run_length_le (st : ProbeState) (events : List ProbeEvent) :
    st.probes.length ≤ (st.run events).probes.length := by
  unfold ProbeState.run
  induction events generalizing st with
  | nil => exact le_refl _
  | cons event events ih => exact (step_length_le st event).trans (ih _)

theorem attribution_bounds {st : ProbeState} {events : List ProbeEvent} {a : ℕ × String}
    (h : a ∈ attribution st events) :
    st.probes.length ≤ a.1 ∧ a.1 < (st.run events).probes.length := by
  induction events generalizing st with
  | nil => cases h
  | cons event events ih =>
      have hrest := run_length_le (st.step event) events
      obtain hnow | hlater := List.mem_append.1 h
      · obtain ⟨hle, hlt⟩ := attributedRows_bounds hnow
        exact ⟨hle, hlt.trans_le hrest⟩
      · obtain ⟨hle, hlt⟩ := ih hlater
        exact ⟨(step_length_le st event).trans hle, hlt⟩

/-- Rows are attributed in the order they were stored, each at most once. -/
theorem attribution_ordered (st : ProbeState) (events : List ProbeEvent) :
    (attribution st events).Pairwise fun a b => a.1 < b.1 := by
  induction events generalizing st with
  | nil => exact List.Pairwise.nil
  | cons event events ih =>
      unfold attribution
      rw [List.pairwise_append]
      refine ⟨?_, ih _, ?_⟩
      · cases event with
        | turn results p =>
            unfold attributedRows
            dsimp only
            split
            · rw [List.pairwise_map]
              apply List.Pairwise.imp _ List.pairwise_lt_range
              intro i j hij
              dsimp only
              omega
            · exact List.Pairwise.nil
        | restart => exact List.Pairwise.nil
      · intro a ha b hb
        exact (attributedRows_bounds ha).2.trans_le (attribution_bounds hb).1

theorem rowsOf_ordered (st : ProbeState) (events : List ProbeEvent) (id : String) :
    (rowsOf id (attribution st events)).Pairwise (· < ·) := by
  unfold rowsOf
  rw [List.pairwise_map]
  exact (attribution_ordered st events).filter _

theorem rowsOf_lt {st : ProbeState} {events : List ProbeEvent} {id : String} {i : ℕ}
    (h : i ∈ rowsOf id (attribution st events)) : i < (st.run events).probes.length := by
  obtain ⟨a, ha, rfl⟩ := List.mem_map.1 h
  exact (attribution_bounds (List.mem_filter.1 ha).1).2

/-! ## The figures after the repair -/

section Repair

variable (events : List ProbeEvent)

/-- The state after a run and a repair. -/
def repaired : ProbeState := (ProbeState.run {} events).repairBurstProbes

/-- The probes attributed to a loadout in the run that are still valid after the repair. -/
def attributedProbes (id : String) : List ProbeRecord :=
  ((rowsOf id (attribution {} events)).filterMap fun i => (repaired events).probes[i]?).filter
    ProbeRecord.valid

/-- A loadout has the figures of the probes attributed to it. -/
def FiguresRight (id : String) : Prop :=
  ((repaired events).table.load id).map (fun found => c1Figures found.1) =
    some (c1Figures ((attributedProbes events id).foldl LoadoutAcc.observeProbe {}))

/-- Every reading left that was taken since a loadout was first seen was attributed to it. -/
def NoOthersSince (r : LoadoutRow) : Prop :=
  ∀ i p, (repaired events).probes[i]? = some p → p.reading.isSome → r.firstSeen ≤ p.ts →
    i ∈ rowsOf r.identity.id (attribution {} events)

/-- No reading attributed to a loadout was taken before it was first seen. -/
def NoneBefore (r : LoadoutRow) : Prop :=
  ∀ i ∈ rowsOf r.identity.id (attribution {} events), ∀ p, (repaired events).probes[i]? = some p →
    p.reading.isSome → r.firstSeen ≤ p.ts

variable {events}

theorem probesFrom_readings (hordered : (ProbeState.run {} events).probes.Pairwise
      fun a b => a.ts ≤ b.ts) (start : ℤ) :
    (probesFrom (repaired events).probes start).filterMap ProbeRecord.reading =
      (List.range (repaired events).probes.length).filterMap fun i =>
        (repaired events).probes[i]?.bind fun p => if start ≤ p.ts then p.reading else none := by
  have hsame : (repaired events).probes.Pairwise fun a b => a.ts ≤ b.ts := by
    have hts : ((ProbeState.run {} events).probes.map ProbeRecord.ts).Pairwise (· ≤ ·) :=
      List.pairwise_map.2 hordered
    rw [← repaired_ts] at hts
    exact List.pairwise_map.1 hts
  unfold probesFrom inOrder
  rw [hsame.insertionSort_eq, ← filterMap_rows, List.filterMap_filter]
  apply List.filterMap_congr
  intro p _
  simp only [decide_eq_true_eq]

theorem attributedProbes_readings (id : String) :
    (attributedProbes events id).filterMap ProbeRecord.reading =
      (List.range (repaired events).probes.length).filterMap fun i =>
        if i ∈ rowsOf id (attribution {} events) then
          (repaired events).probes[i]?.bind ProbeRecord.reading else none := by
  have hrows := rows_eq_filter (rowsOf_ordered {} events id) fun i hi => rowsOf_lt hi
  have hlength : (repaired events).probes.length = (ProbeState.run {} events).probes.length :=
    repaired_length _
  have hvalid : ∀ p : ProbeRecord, (if p.valid then p.reading else none) = p.reading := by
    intro p
    unfold ProbeRecord.reading ProbeRecord.isReading
    cases p.valid <;> simp
  unfold attributedProbes
  rw [List.filterMap_filter, List.filterMap_filterMap, hlength]
  conv_lhs => rw [hrows]
  rw [List.filterMap_filter]
  apply List.filterMap_congr
  intro i _
  simp only [decide_eq_true_eq, hvalid]

/-- The figures a rebuilt loadout has. -/
theorem load_repaired {r : LoadoutRow}
    (hrebuilt : burstReadings (ProbeState.run {} events).probes ≠ [])
    (hrecent : r ∈ (ProbeState.run {} events).table.recent 50) :
    ((repaired events).table.load r.identity.id).map (fun found => c1Figures found.1) =
      some (figuresOf ((probesFrom (repaired events).probes r.firstSeen).filterMap
        ProbeRecord.reading)) := by
  have hunique : Unique (ProbeState.run {} events).table :=
    @unique_run {} List.nodup_nil events
  have htable : (repaired events).table = rebuildLoadouts (repaired events).probes
      (ProbeState.run {} events).table ((ProbeState.run {} events).table.recent 50) := by
    unfold repaired ProbeState.repairBurstProbes
    dsimp only
    rw [if_neg hrebuilt]
  have hload := load_rebuildLoadouts (repaired events).probes (recent_unique hunique 50)
    (fun t ht => List.mem_map_of_mem (mem_of_recent ht)) hrecent
  rw [← htable] at hload
  have hfigures := congrArg (Option.map c1Figures) hload
  rw [Option.map_map, Option.map_some, rebuildC1_figures] at hfigures
  exact hfigures

/-- Where the probes are stored in order of time and none of a loadout's own was taken before
it was first seen, a rebuilt loadout has the figures of the probes attributed to it exactly when
no other reading was taken since. -/
theorem rebuilt_figures_iff (events : List ProbeEvent) (r : LoadoutRow)
    (hrebuilt : burstReadings (ProbeState.run {} events).probes ≠ [])
    (hrecent : r ∈ (ProbeState.run {} events).table.recent 50)
    (hordered : (ProbeState.run {} events).probes.Pairwise fun a b => a.ts ≤ b.ts)
    (hbefore : NoneBefore events r) :
    FiguresRight events r.identity.id ↔ NoOthersSince events r := by
  let rows := rowsOf r.identity.id (attribution {} events)
  let late : ℕ → Option ℚ := fun i =>
    (repaired events).probes[i]?.bind fun p => if r.firstSeen ≤ p.ts then p.reading else none
  let own : ℕ → Option ℚ := fun i =>
    if i ∈ rows then (repaired events).probes[i]?.bind ProbeRecord.reading else none
  have hiff : FiguresRight events r.identity.id ↔
      figuresOf ((List.range (repaired events).probes.length).filterMap late) =
        figuresOf ((List.range (repaired events).probes.length).filterMap own) := by
    unfold FiguresRight
    rw [load_repaired hrebuilt hrecent, observed_figures, probesFrom_readings hordered,
      attributedProbes_readings, Option.some.injEq]
  rw [hiff]
  constructor
  · intro hfigures
    have hcount : ((List.range (repaired events).probes.length).filterMap late).length =
        ((List.range (repaired events).probes.length).filterMap own).length :=
      congrArg Prod.fst hfigures
    rw [List.length_filterMap_eq_countP, List.length_filterMap_eq_countP] at hcount
    have hown : ∀ i ∈ List.range (repaired events).probes.length,
        (own i).isSome = true → (late i).isSome = true := by
      intro i _ hi
      by_cases hrow : i ∈ rows
      · simp only [own, if_pos hrow] at hi
        cases hp : (repaired events).probes[i]? with
        | none => simp [hp] at hi
        | some p =>
            rw [hp] at hi
            have hle := hbefore i hrow p hp hi
            simp only [late, hp, Option.bind_some, if_pos hle]
            exact hi
      · simp [own, hrow] at hi
    have hlate := of_countP_eq hown hcount
    intro i p hp hreading hle
    have hrange : i ∈ List.range (repaired events).probes.length := by
      rw [List.mem_range]
      exact (List.getElem?_eq_some_iff.1 hp).1
    have hin : (late i).isSome = true := by
      simp only [late, hp, Option.bind_some, if_pos hle]
      exact hreading
    by_contra hrow
    have hsome := hlate i hrange hin
    have hnone : own i = none := if_neg hrow
    rw [hnone] at hsome
    cases hsome
  · intro hothers
    congr 1
    apply List.filterMap_congr
    intro i _
    cases hp : (repaired events).probes[i]? with
    | none => simp [late, own, hp]
    | some p =>
        simp only [late, own, hp, Option.bind_some]
        cases hreading : p.reading with
        | none => simp
        | some v =>
            by_cases hle : r.firstSeen ≤ p.ts
            · have hrow : i ∈ rows := hothers i p hp (by rw [hreading]; rfl) hle
              rw [if_pos hle, if_pos hrow]
            · have hrow : i ∉ rows := fun hmem =>
                hle (hbefore i hmem p hp (by rw [hreading]; rfl))
              rw [if_neg hle, if_neg hrow]

end Repair

/-! ## Two models in turn -/

theorem noneBefore_of_all {events : List ProbeEvent} {r : LoadoutRow}
    (h : ((rowsOf r.identity.id (attribution {} events)).all fun i =>
      (repaired events).probes[i]?.all fun p => r.firstSeen ≤ p.ts) = true) :
    NoneBefore events r := by
  intro i hi p hp _
  have hall := List.all_eq_true.1 h i hi
  rw [hp] at hall
  exact of_decide_eq_true hall

theorem noOthersSince_of_all {events : List ProbeEvent} {r : LoadoutRow}
    (h : ((List.range (repaired events).probes.length).all fun i =>
      (repaired events).probes[i]?.all fun p => p.reading.isNone || p.ts < r.firstSeen ||
        i ∈ rowsOf r.identity.id (attribution {} events)) = true) :
    NoOthersSince events r := by
  intro i p hp hreading hle
  have hrange : i ∈ List.range (repaired events).probes.length := by
    rw [List.mem_range]
    exact (List.getElem?_eq_some_iff.1 hp).1
  have hall := List.all_eq_true.1 h i hrange
  rw [hp, Option.all_some, Bool.or_eq_true, Bool.or_eq_true] at hall
  obtain (hnone | hlt) | hrow := hall
  · rw [Option.isNone_iff_eq_none] at hnone
    rw [hnone] at hreading
    cases hreading
  · have hlt := of_decide_eq_true hlt
    omega
  · exact of_decide_eq_true hrow

/-- A valid reading. -/
def takenAt (ts : ℤ) (v : ℚ) : ProbeRecord := { ts := ts, status := "ok", decodeTokS := some v }

/-- One model has four readings, then another has four and a burst. -/
def twoModels : List ProbeEvent :=
  [.turn [] (FreshLoadouts.plainPoll 100 "llama" []),
    .turn [takenAt 101 10, takenAt 102 10, takenAt 103 10, takenAt 104 10]
      (FreshLoadouts.plainPoll 105 "llama" []),
    .turn [] (FreshLoadouts.plainPoll 110 "qwen" []),
    .turn [takenAt 111 10, takenAt 112 10, takenAt 113 10, takenAt 114 10, takenAt 115 100]
      (FreshLoadouts.plainPoll 116 "qwen" [])]

theorem typicalReading_twoModels :
    typicalReading (ProbeState.run {} twoModels).probes = 10 := by
  unfold typicalReading median
  rw [List.mergeSort_of_pairwise (by decide +kernel)]
  decide +kernel

theorem burst_twoModels :
    burstReadings (ProbeState.run {} twoModels).probes = [(115, 100)] := by
  unfold burstReadings
  rw [typicalReading_twoModels]
  decide +kernel

theorem recent_twoModels : (ProbeState.run {} twoModels).table.recent 50 ≠ [] := by decide

/-- The second model is rebuilt from its own readings alone. -/
theorem later_model_is_right : FiguresRight twoModels "qwen" := by
  let r := ((ProbeState.run {} twoModels).table.recent 50).head recent_twoModels
  have hid : r.identity.id = "qwen" := by decide
  have hbefore : NoneBefore twoModels r := by
    apply noneBefore_of_all
    unfold repaired ProbeState.repairBurstProbes
    rw [burst_twoModels, typicalReading_twoModels]
    decide +kernel
  have hiff := rebuilt_figures_iff twoModels r (by rw [burst_twoModels]; decide)
    (List.head_mem recent_twoModels) (by decide) hbefore
  rw [← hid, hiff]
  apply noOthersSince_of_all
  unfold repaired ProbeState.repairBurstProbes
  rw [burst_twoModels, typicalReading_twoModels]
  decide +kernel

/-- The first model's figures then hold the second one's readings as well. -/
theorem repair_mixes_two_models : ¬ FiguresRight twoModels "llama" := by
  unfold FiguresRight attributedProbes repaired ProbeState.repairBurstProbes
  rw [burst_twoModels, typicalReading_twoModels]
  decide +kernel

end Lss.Analysis.C1Rebuild
