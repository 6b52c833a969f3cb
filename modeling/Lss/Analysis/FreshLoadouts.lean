import Lss.Model.Loadouts

/-!
# What a new loadout starts from

A loadout that was never seen starts from everything stored since its run started. A plain
process has no start, and a container goes on when its model is swapped: what was stored under
an earlier model is then folded in. The accumulator holds its own run exactly when nothing of
another run is stored in that stretch of time.
-/

set_option autoImplicit false

namespace Lss.Analysis.FreshLoadouts

open Lss.Model

/-! ## Whose record it is -/

/-- Which run served at a time, if any. -/
abbrev Serving := ℤ → Option Seen

section Own

variable (serving : Serving) (seen : Seen)

/-- A sample or a probe of a time at which the run served. -/
def ownTime (t : ℤ) : Bool := serving t = some seen

/-- A window of a minute in which the run served all along. -/
def ownMinute (t : ℤ) : Bool := (List.range 60).all fun i => ownTime serving seen (t + i)

/-- The records of a run. -/
def ownRecords (db : StoredRecords) : StoredRecords where
  samples := db.samples.filter fun s => ownTime serving seen s.ts
  probes := db.probes.filter fun p => ownTime serving seen p.ts
  minutes metric := (db.minutes metric).filter fun w => ownMinute serving seen w.1

/-- Only records of the run are folded in between two times. -/
structure FoldsOwn (db : StoredRecords) (start now : ℤ) : Prop where
  samples : ∀ s ∈ samplesBetween db.samples start now, ownTime serving seen s.ts
  probes : ∀ p ∈ db.probesBetween start now, ownTime serving seen p.ts
  minutes : ∀ hist ∈ loadoutHists, ∀ w ∈ db.histRows hist.1 start now,
    ownMinute serving seen w.1

/-- No record of another run was stored since the run started. -/
structure NoForeign (db : StoredRecords) (start now : ℤ) : Prop where
  samples : ∀ s ∈ db.samples, start ≤ s.ts → s.ts < now → ownTime serving seen s.ts
  probes : ∀ p ∈ db.probes, start ≤ p.ts → p.ts < now → ownTime serving seen p.ts
  minutes : ∀ hist ∈ loadoutHists, ∀ w ∈ db.minutes hist.1, start ≤ w.1 → w.1 < now →
    ownMinute serving seen w.1

variable {serving seen}

theorem filter_own_eq {α : Type} (time : α → ℤ) (own : ℤ → Bool) (start now : ℤ) (xs : List α)
    (h : ∀ x ∈ xs, start ≤ time x → time x < now → own (time x)) :
    (xs.filter fun x => own (time x)).filter (fun x => start ≤ time x ∧ time x < now) =
      xs.filter fun x => start ≤ time x ∧ time x < now := by
  rw [List.filter_filter]
  apply List.filter_congr
  intro x hx
  by_cases hin : start ≤ time x ∧ time x < now
  · simp [hin, h x hx hin.1 hin.2]
  · simp [hin]

theorem foldsOwn_iff (db : StoredRecords) (start now : ℤ) :
    FoldsOwn serving seen db start now ↔ NoForeign serving seen db start now := by
  constructor
  · intro h
    refine ⟨?_, ?_, ?_⟩
    · intro s hs hstart hnow
      exact h.samples s (List.mem_filter.2 ⟨hs, by simp [hstart, hnow]⟩)
    · intro p hp hstart hnow
      exact h.probes p (List.mem_filter.2 ⟨hp, by simp [hstart, hnow]⟩)
    · intro hist hhist w hw hstart hnow
      exact h.minutes hist hhist w (List.mem_filter.2 ⟨hw, by simp [hstart, hnow]⟩)
  · intro h
    refine ⟨?_, ?_, ?_⟩
    · intro s hs
      obtain ⟨hmem, hin⟩ := List.mem_filter.1 hs
      have hin := of_decide_eq_true hin
      exact h.samples s hmem hin.1 hin.2
    · intro p hp
      obtain ⟨hmem, hin⟩ := List.mem_filter.1 hp
      have hin := of_decide_eq_true hin
      exact h.probes p hmem hin.1 hin.2
    · intro hist hhist w hw
      obtain ⟨hmem, hin⟩ := List.mem_filter.1 hw
      have hin := of_decide_eq_true hin
      exact h.minutes hist hhist w hmem hin.1 hin.2

/-- The back-fill is then what the run's own records alone would give. -/
theorem backfill_own {db : StoredRecords} {start now : ℤ}
    (h : NoForeign serving seen db start now) :
    backfill (ownRecords serving seen db) start now = backfill db start now := by
  have hsamples : samplesBetween (ownRecords serving seen db).samples start now =
      samplesBetween db.samples start now :=
    filter_own_eq Sample.ts (ownTime serving seen) start now db.samples h.samples
  have hprobes : (ownRecords serving seen db).probesBetween start now =
      db.probesBetween start now :=
    filter_own_eq ProbeRecord.ts (ownTime serving seen) start now db.probes h.probes
  have hminutes : ∀ hist ∈ loadoutHists,
      (ownRecords serving seen db).histRows hist.1 start now = db.histRows hist.1 start now := by
    intro hist hhist
    exact filter_own_eq Prod.fst (ownMinute serving seen) start now (db.minutes hist.1)
      (h.minutes hist hhist)
  unfold backfill
  rw [hsamples, hprobes]
  apply List.foldl_ext
  intro acc hist hhist
  rw [hminutes hist hhist]

end Own

/-! ## One poll -/

/-- A poll that starts a loadout never seen before, from what is stored. -/
structure Builds (st : Loadouts × LoadoutTable) (p : Poll) (seen : Seen) (id : LoadoutIdentity) :
    Prop where
  serves : seenAs p.sample = some seen
  other : st.1.isOther seen = true
  known : p.identify seen.name = some id
  changed : (st.1.current.filter fun c => c.id.id = id.id) = none
  fresh : st.2.load id.id = none

/-- Changing the rows of one loadout does not change what is found of another. -/
theorem find?_map_of_ne (table : LoadoutTable) (change : LoadoutRow → LoadoutRow)
    (hchange : ∀ r, (change r).identity = r.identity) {id other : String} (h : id ≠ other) :
    (table.map fun r => if r.identity.id = id then change r else r).find?
        (fun r => r.identity.id = other) =
      table.find? fun r => r.identity.id = other := by
  induction table with
  | nil => rfl
  | cons r table ih =>
      rw [List.map_cons]
      by_cases hid : r.identity.id = id
      · have hother : ¬ r.identity.id = other := by
          rw [hid]
          exact h
        have hchanged : ¬ (change r).identity.id = other := by
          rw [hchange]
          exact hother
        rw [if_pos hid, List.find?_cons_of_neg (by simpa using hchanged),
          List.find?_cons_of_neg (by simpa using hother), ih]
      · rw [if_neg hid, List.find?_cons, List.find?_cons, ih]

/-- Saving another loadout does not change what is stored for one. -/
theorem load_save_of_ne (table : LoadoutTable) (id : LoadoutIdentity) (acc : LoadoutAcc)
    (firstSeen : ℤ) {other : String} (h : id.id ≠ other) :
    (table.save id acc firstSeen).load other = table.load other := by
  unfold LoadoutTable.save LoadoutTable.load
  dsimp only
  split
  · rw [find?_map_of_ne table
      (fun r => { r with acc := acc, lastSeen := max acc.lastTs firstSeen }) (fun _ => rfl) h]
  · rw [List.find?_append]
    simp [h]

/-- A switch depends on what is stored only through the back-fill of a loadout never seen. -/
theorem switchTo_records (l : Loadouts) (table : LoadoutTable) (records records' : StoredRecords)
    (id : LoadoutIdentity) (seen : Seen) (now : ℤ)
    (h : (l.current.filter fun c => c.id.id = id.id) = none → table.load id.id = none →
      backfill records seen.startedAt now = backfill records' seen.startedAt now) :
    l.switchTo table records id seen now = l.switchTo table records' id seen now := by
  unfold Loadouts.switchTo
  cases hcur : l.current.filter fun c => c.id.id = id.id with
  | some cur => rfl
  | none =>
      have hstart : ∀ saved : LoadoutTable, saved.load id.id = table.load id.id →
          Loadouts.startAcc saved records id seen.startedAt now =
            Loadouts.startAcc saved records' id seen.startedAt now := by
        intro saved hsaved
        unfold Loadouts.startAcc
        cases hload : saved.load id.id with
        | some found => rfl
        | none =>
            rw [hsaved] at hload
            rw [h hcur hload]
      cases hold : l.current with
      | none =>
          dsimp only
          rw [hstart table rfl]
      | some old =>
          have hne : old.id.id ≠ id.id := by
            intro heq
            rw [hold] at hcur
            simp [heq] at hcur
          dsimp only
          rw [hstart _ (load_save_of_ne table old.id old.acc old.firstSeen hne)]

/-- What is stored matters to a poll only through the back-fill of a loadout never seen. -/
theorem onSample_records (st : Loadouts × LoadoutTable) (p : Poll) (records : StoredRecords)
    (h : ∀ seen id, Builds st p seen id →
      backfill records seen.startedAt p.sample.ts = backfill p.records seen.startedAt p.sample.ts) :
    Loadouts.onSample st { p with records := records } = Loadouts.onSample st p := by
  have hfollow : ∀ l : Loadouts, l.current = st.1.current →
      l.follow st.2 { p with records := records } = l.follow st.2 p := by
    intro l hl
    unfold Loadouts.follow
    dsimp only
    cases hserves : seenAs p.sample with
    | none => rfl
    | some seen =>
        dsimp only
        have hother : l.isOther seen = st.1.isOther seen := by
          unfold Loadouts.isOther
          rw [hl]
        by_cases hnew : l.isOther seen = true
        · rw [if_pos hnew, if_pos hnew]
          cases hknown : p.identify seen.name with
          | none => rfl
          | some id =>
              dsimp only
              apply switchTo_records
              intro hchanged hfresh
              rw [hl] at hchanged
              exact h seen id ⟨hserves, hother ▸ hnew, hknown, hchanged, hfresh⟩
        · rw [if_neg hnew, if_neg hnew]
  unfold Loadouts.onSample
  dsimp only
  rw [hfollow]
  split <;> rfl

/-- After such a poll the loadout is the back-fill with the poll's own sample. -/
theorem onSample_of_builds {st : Loadouts × LoadoutTable} {p : Poll} {seen : Seen}
    {id : LoadoutIdentity} (h : Builds st p seen id) :
    ∃ cold, (Loadouts.onSample st p).1.current.map Current.acc =
      let acc := Loadouts.startRun (backfill p.records seen.startedAt p.sample.ts)
        seen.startedAt cold
      some ({ acc with slots := max acc.slots p.sample.slots }.observe none p.sample) := by
  let l := if p.sample.serveUp then st.1 else { st.1 with lastDownTs := some p.sample.ts }
  have hcurrent : l.current = st.1.current := by
    dsimp only [l]
    split <;> rfl
  have hother : l.isOther seen = true := by
    unfold Loadouts.isOther
    rw [hcurrent]
    exact h.other
  have hfollow : l.follow st.2 p = l.switchTo st.2 p.records id seen p.sample.ts := by
    unfold Loadouts.follow
    simp only [h.serves, hother, h.known, if_true]
  have hfound : ∀ saved : LoadoutTable, saved.load id.id = none →
      (Loadouts.startAcc saved p.records id seen.startedAt p.sample.ts).1 =
        backfill p.records seen.startedAt p.sample.ts := by
    intro saved hsaved
    unfold Loadouts.startAcc
    rw [hsaved]
  have hswitch : ∃ current, (l.switchTo st.2 p.records id seen p.sample.ts).1.current =
      some current ∧ (l.switchTo st.2 p.records id seen p.sample.ts).1.prev = none ∧
      current.acc = Loadouts.startRun (backfill p.records seen.startedAt p.sample.ts)
        seen.startedAt (l.coldStart seen.startedAt p.sample.ts) := by
    unfold Loadouts.switchTo
    rw [hcurrent, h.changed]
    cases hold : st.1.current with
    | none =>
        dsimp only
        rw [hfound st.2 h.fresh]
        exact ⟨_, rfl, rfl, rfl⟩
    | some old =>
        have hne : old.id.id ≠ id.id := by
          intro heq
          have hchanged := h.changed
          rw [hold] at hchanged
          simp [heq] at hchanged
        dsimp only
        rw [hfound _ (by rw [load_save_of_ne _ _ _ _ hne]; exact h.fresh)]
        exact ⟨_, rfl, rfl, rfl⟩
  obtain ⟨current, hsome, hprev, hacc⟩ := hswitch
  refine ⟨l.coldStart seen.startedAt p.sample.ts, ?_⟩
  show ((l.follow st.2 p).1.addSample (l.follow st.2 p).2 p.sample).1.current.map Current.acc = _
  rw [hfollow]
  unfold Loadouts.addSample
  rw [hsome, hprev]
  dsimp only
  rw [← hacc]
  split <;> rfl

/-! ## Every run -/

section Run

variable (serving : Serving)

/-- A poll as if only the records of its own run were stored. -/
def ownEvent : LoadoutEvent → LoadoutEvent
  | .poll p =>
    match seenAs p.sample with
    | some seen => .poll { p with records := ownRecords serving seen p.records }
    | none => .poll p
  | event => event

/-- Whenever a run of events starts a loadout never seen, something holds of the run that
serves and of the poll. -/
def AtBuilds (holds : Seen → Poll → Prop) (st : Loadouts × LoadoutTable) :
    List LoadoutEvent → Prop
  | [] => True
  | event :: events =>
    (∀ p seen id, event = .poll p → Builds st p seen id → holds seen p) ∧
      AtBuilds holds (Loadouts.step st event) events

theorem atBuilds_congr {holds holds' : Seen → Poll → Prop}
    (h : ∀ seen p, holds seen p ↔ holds' seen p) (st : Loadouts × LoadoutTable)
    (events : List LoadoutEvent) : AtBuilds holds st events ↔ AtBuilds holds' st events := by
  induction events generalizing st with
  | nil => exact Iff.rfl
  | cons event events ih =>
      unfold AtBuilds
      rw [ih]
      apply and_congr_left
      intro _
      constructor
      · intro hall p seen id hevent hbuilds
        exact (h seen p).1 (hall p seen id hevent hbuilds)
      · intro hall p seen id hevent hbuilds
        exact (h seen p).2 (hall p seen id hevent hbuilds)

/-- One event, when no record of another run is stored. -/
theorem step_own (st : Loadouts × LoadoutTable) (event : LoadoutEvent)
    (h : ∀ p seen id, event = .poll p → Builds st p seen id →
      NoForeign serving seen p.records seen.startedAt p.sample.ts) :
    Loadouts.step st (ownEvent serving event) = Loadouts.step st event := by
  cases event with
  | poll p =>
      cases hserves : seenAs p.sample with
      | none => simp only [ownEvent, hserves]
      | some seen =>
          simp only [ownEvent, hserves]
          apply onSample_records
          intro other id hbuilds
          have heq : other = seen := by
            have hother := hbuilds.serves
            rw [hserves] at hother
            exact (Option.some.inj hother).symm
          subst heq
          exact backfill_own (h p other id rfl hbuilds)
  | probe p => rfl
  | window w => rfl
  | restart => rfl

theorem run_own (st : Loadouts × LoadoutTable) (events : List LoadoutEvent)
    (h : AtBuilds (fun seen p => NoForeign serving seen p.records seen.startedAt p.sample.ts)
      st events) :
    Loadouts.run st (events.map (ownEvent serving)) = Loadouts.run st events := by
  unfold Loadouts.run
  induction events generalizing st with
  | nil => rfl
  | cons event events ih =>
      obtain ⟨hstep, hrest⟩ := h
      rw [List.map_cons, List.foldl_cons, List.foldl_cons, step_own serving st event hstep]
      exact ih _ hrest

/-- In every run the loadouts never seen before fold in only records of their own runs, and all
comes out as if no others were stored, exactly when at each of them no record of another run was
stored since its run started. -/
theorem fresh_loadouts_own_iff (st : Loadouts × LoadoutTable) (events : List LoadoutEvent) :
    (AtBuilds (fun seen p => FoldsOwn serving seen p.records seen.startedAt p.sample.ts)
        st events ∧
      Loadouts.run st (events.map (ownEvent serving)) = Loadouts.run st events) ↔
    AtBuilds (fun seen p => NoForeign serving seen p.records seen.startedAt p.sample.ts)
      st events := by
  have hiff := atBuilds_congr
    (fun seen p => @foldsOwn_iff serving seen p.records seen.startedAt
      p.sample.ts) st events
  constructor
  · intro h
    exact hiff.1 h.1
  · intro h
    exact ⟨hiff.2 h, run_own serving st events h⟩

end Run

/-! ## A model swapped in a plain process -/

/-- A poll of a plain process that serves a model. -/
def plainPoll (ts : ℤ) (model : String) (stored : List Sample) : Poll where
  sample := { ts := ts, serveUp := true, model := some model }
  records := { samples := stored }
  identify _ := some { id := model, model := model }

/-- The second model of a plain process starts with the sample of the first. -/
theorem swapped_model_folds_in_the_first :
    let first := plainPoll 100 "llama" []
    let second := plainPoll 105 "qwen" [first.sample]
    let serving : Serving := fun t => if t < 105 then some ⟨"", 0, "llama"⟩ else some ⟨"", 0, "qwen"⟩
    ¬ AtBuilds (fun seen p => FoldsOwn serving seen p.records seen.startedAt p.sample.ts)
        ({}, []) [.poll first, .poll second] ∧
      ((Loadouts.run ({}, []) [.poll first, .poll second]).1.current.map fun c =>
        (c.id.id, c.acc.samples)) = some ("qwen", 2) := by
  intro first second serving
  constructor
  · intro h
    have hfolds := h.2.1 second ⟨"", 0, "qwen"⟩ { id := "qwen", model := "qwen" } rfl
      ⟨by decide, by decide, by decide, by decide, by decide⟩
    have hsample := hfolds.samples first.sample
      (List.mem_filter.2 ⟨List.mem_singleton.2 rfl, by decide⟩)
    exact absurd hsample (by decide)
  · decide

end Lss.Analysis.FreshLoadouts
