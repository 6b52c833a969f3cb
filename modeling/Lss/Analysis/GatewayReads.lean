import Mathlib.Data.List.Nodup
import Lss.Model.GatewayRead

/-!
# Each request of the gateway's log once

A request for the gateway tables takes the open ten minutes first and reads the stored ones after.
When the ten minutes it took end in between, they are stored as well and counted twice. Nothing of
a cycle that was complete is ever missing.
-/

set_option autoImplicit false

namespace Lss.Analysis.GatewayReads

open Lss.Model
open Lss.Library.Buckets

/-! ## What the entries are made of -/

/-- The logs of some polls merged in order. -/
def merged (polls : List Sample) : LogDelta := polls.foldl (fun log s => log.merge s.log) {}

/-- The polls of one ten minutes. -/
abbrev tenMinutes (t : ℤ) (polls : List Sample) : List Sample := inBucket Sample.ts res10m t polls

/-- The ten minutes that are over, or that nothing was polled in. -/
def Settled (t : ℤ) (pushed : List Sample) : Prop :=
  Closed Sample.ts res10m t pushed ∨ tenMinutes t pushed = []

instance (t : ℤ) (pushed : List Sample) : Decidable (Settled t pushed) := by
  unfold Settled
  haveI : Decidable (tenMinutes t pushed = []) :=
    decidable_of_iff ((tenMinutes t pushed).isEmpty = true) List.isEmpty_iff
  infer_instance

/-- The polls a stored row is made of, where something was logged in them. -/
def rowOf (polls : List Sample) (t : ℤ) : Option (List Sample) :=
  if (merged (tenMinutes t polls)).isEmpty then none else some (tenMinutes t polls)

/-- The rows stored after some polls, on top of those of earlier ones. -/
def storedRows (old pushed : List Sample) (t : ℤ) : Option (List Sample) :=
  if Settled t pushed then rowOf (old ++ pushed) t else none

/-- The ten minutes still open after some polls. -/
def openRow (pushed : List Sample) : Option (ℤ × List Sample) :=
  pushed.getLast?.map fun s =>
    (bucket res10m s.ts, tenMinutes (bucket res10m s.ts) pushed)

/-- The polls some events push into the pipeline. -/
def pushed : List LoopEvent → List Sample
  | [] => []
  | .push f :: events => f.sample :: pushed events
  | .publish :: events => pushed events

/-- Those of them that were in it when a cycle last ended; `done` are those before. -/
def shownFrom (done shown : List Sample) : List LoopEvent → List Sample
  | [] => shown
  | .push f :: events => shownFrom (done ++ [f.sample]) shown events
  | .publish :: events => shownFrom done done events

/-- The polls of the cycles that are complete. -/
def shown (events : List LoopEvent) : List Sample := shownFrom [] [] events

/-- What an answer is made of: the polls of each of its entries. -/
def sources (old : List Sample) (before between : List LoopEvent) (now range : ℤ) :
    List (ℤ × List Sample) :=
  rowsBetween (storedRows old (pushed (before ++ between))) (bucket res10m (now - range))
    (now + 1) ++ (openRow (shown before)).toList

/-- A poll that found something in the log. -/
def Recorded (s : Sample) : Prop := s.log.isEmpty = false

instance (s : Sample) : Decidable (Recorded s) := inferInstanceAs (Decidable (_ = _))

/-- The polls with records in an answer, each as often as it was counted. -/
def countedPolls (entries : List (ℤ × List Sample)) : List Sample :=
  (entries.flatMap Prod.snd).filter fun s => Recorded s

/-! ## Merged logs -/

theorem merged_concat (polls : List Sample) (s : Sample) :
    merged (polls ++ [s]) = (merged polls).merge s.log := List.foldl_concat ..

theorem isEmpty_merge (a b : LogDelta) : (a.merge b).isEmpty = (a.isEmpty && b.isEmpty) := by
  have lane : ∀ l o : LaneLog, (l.merge o).isEmpty = (l.isEmpty && o.isEmpty) := by
    intro l o
    rw [Bool.eq_iff_iff]
    unfold LaneLog.isEmpty LaneLog.merge
    simp only [Bool.and_eq_true, beq_iff_eq]
    omega
  unfold LogDelta.isEmpty LogDelta.merge
  rw [lane, lane, Bool.and_assoc, Bool.and_assoc, Bool.and_left_comm b.publicLane.isEmpty]

/-- Nothing is logged in some polls together exactly when nothing is in each. -/
theorem isEmpty_merged (polls : List Sample) :
    (merged polls).isEmpty = true ↔ ∀ s ∈ polls, ¬Recorded s := by
  induction polls using List.reverseRecOn with
  | nil =>
      constructor
      · exact fun _ s hs => nomatch hs
      · exact fun _ => rfl
  | append_singleton polls s ih =>
      rw [merged_concat, isEmpty_merge, Bool.and_eq_true, ih]
      unfold Recorded
      rw [List.forall_mem_append, List.forall_mem_singleton, Bool.not_eq_false]

theorem rowOf_congr {t : ℤ} {xs ys : List Sample} (h : tenMinutes t xs = tenMinutes t ys) :
    rowOf xs t = rowOf ys t := by
  unfold rowOf
  rw [h]

theorem rowOf_of_empty {t : ℤ} {xs : List Sample} (h : tenMinutes t xs = []) :
    rowOf xs t = none := by
  unfold rowOf
  rw [h]
  exact if_pos rfl

/-! ## The loop -/

/-- Polls in order of time. -/
def InOrder (polls : List Sample) : Prop := polls.Pairwise fun s t => s.ts < t.ts

/-- The state of the loop after some polls, of which some had been pushed when a cycle last
ended. -/
structure After (old polls done : List Sample) (st : LoopState) : Prop where
  gate : st.pipeline.gate = (openRow polls).map fun r => (r.1, merged r.2)
  rows : ∀ t, st.db.gatelog t = (storedRows old polls t).map merged
  gateOpen : st.gateOpen = (openRow done).map fun r => (r.1, merged r.2)

theorem bucket_le_of_inOrder {polls : List Sample} {s : Sample} (inOrder : InOrder (polls ++ [s]))
    {x : Sample} (hx : x ∈ polls) : bucket res10m x.ts ≤ bucket res10m s.ts := by
  have lt := (List.pairwise_append.mp inOrder).2.2 x hx s (List.mem_singleton.mpr rfl)
  exact bucket_mono (by decide) (le_of_lt lt)

theorem tenMinutes_concat (t : ℤ) (polls : List Sample) (s : Sample) :
    tenMinutes t (polls ++ [s]) =
      if bucket res10m s.ts = t then tenMinutes t polls ++ [s] else tenMinutes t polls := by
  unfold tenMinutes
  rw [inBucket_append]
  have single : inBucket Sample.ts res10m t [s] = if bucket res10m s.ts = t then [s] else [] := by
    unfold inBucket
    rw [List.filter_singleton]
    by_cases h : bucket res10m s.ts = t
    · rw [if_pos h, decide_eq_true h]
      rfl
    · rw [if_neg h, decide_eq_false h]
      rfl
  rw [single]
  split
  · rfl
  · rw [List.append_nil]

/-- The gateway's part of a push. -/
theorem push_gate (p : Pipeline) (db : RollupDb) (f : Feed) :
    (p.push db f.sample f.hists f.replace).1.gate = (gateStep p.gate db f.sample f.replace).1 ∧
      (p.push db f.sample f.hists f.replace).2.gatelog =
        (gateStep p.gate db f.sample f.replace).2.gatelog := by
  have batch : ∀ (d : RollupDb) (b : Option RollupBatch) (r : Bool),
      (writeBatch d b r).gatelog = d.gatelog := by
    intro d b r
    cases b <;> rfl
  have windows : ∀ (ws : List ClosedWindow) (d : RollupDb),
      (ws.foldl writeWindow d).gatelog = d.gatelog := by
    intro ws
    induction ws with
    | nil => exact fun _ => rfl
    | cons w ws ih =>
        intro d
        rw [List.foldl_cons, ih]
        rfl
  have gate : ∀ d d' : RollupDb, d.gatelog = d'.gatelog →
      (gateStep p.gate d f.sample f.replace).1 = (gateStep p.gate d' f.sample f.replace).1 ∧
        (gateStep p.gate d f.sample f.replace).2.gatelog =
          (gateStep p.gate d' f.sample f.replace).2.gatelog := by
    intro d d' h
    unfold gateStep
    cases p.gate with
    | none => exact ⟨rfl, h⟩
    | some g =>
        dsimp only
        split
        · exact ⟨rfl, h⟩
        · refine ⟨rfl, ?_⟩
          unfold RollupDb.writeGatelog
          split
          · exact h
          · rw [h]
  unfold Pipeline.push
  dsimp only
  apply gate
  rw [windows, batch, batch]

/-- The ten minutes of the newest poll are open. -/
theorem not_settled_newest {polls : List Sample} {s : Sample} (inOrder : InOrder (polls ++ [s])) :
    ¬Settled (bucket res10m s.ts) (polls ++ [s]) := by
  rintro (⟨x, hx, later⟩ | none_there)
  · cases List.mem_append.mp hx with
    | inl h => exact absurd later (not_lt.mpr (bucket_le_of_inOrder inOrder h))
    | inr h =>
        rw [List.mem_singleton.mp h] at later
        exact absurd later (lt_irrefl _)
  · rw [tenMinutes_concat, if_pos rfl] at none_there
    exact absurd none_there (by simp)

/-- One more poll settles nothing but the ten minutes of the newest poll before it. -/
theorem settled_concat {polls : List Sample} {last s : Sample} {t : ℤ}
    (inOrder : InOrder (polls ++ [last])) (before : bucket res10m last.ts ≠ t)
    (now : bucket res10m s.ts ≠ t) :
    Settled t (polls ++ [last] ++ [s]) ↔ Settled t (polls ++ [last]) := by
  unfold Settled
  rw [tenMinutes_concat, if_neg now]
  constructor
  · rintro (⟨x, hx, later⟩ | none_there)
    · cases List.mem_append.mp hx with
      | inl h => exact Or.inl ⟨x, h, later⟩
      | inr h =>
          by_cases empty : tenMinutes t (polls ++ [last]) = []
          · exact Or.inr empty
          · obtain ⟨y, hy⟩ := List.exists_mem_of_ne_nil _ empty
            rw [tenMinutes_concat, if_neg before] at hy
            obtain ⟨hy, at_t⟩ := List.mem_filter.mp hy
            have le := bucket_le_of_inOrder inOrder hy
            rw [of_decide_eq_true at_t] at le
            exact Or.inl ⟨last, List.mem_append_right _ (List.mem_singleton.mpr rfl),
              lt_of_le_of_ne le before.symm⟩
    · exact Or.inr none_there
  · rintro (⟨x, hx, later⟩ | none_there)
    · exact Or.inl ⟨x, List.mem_append_left _ hx, later⟩
    · exact Or.inr none_there

/-- The polls stored before lie in earlier ten minutes. -/
def Earlier (old polls : List Sample) : Prop :=
  ∀ x ∈ old, ∀ s ∈ polls, bucket res10m x.ts < bucket res10m s.ts

theorem tenMinutes_old {old polls : List Sample} (earlier : Earlier old polls) {s : Sample}
    (hs : s ∈ polls) : tenMinutes (bucket res10m s.ts) old = [] :=
  inBucket_eq_nil fun x hx => ne_of_lt (earlier x hx s hs)

theorem openRow_concat (polls : List Sample) (s : Sample) :
    openRow (polls ++ [s]) =
      some (bucket res10m s.ts, tenMinutes (bucket res10m s.ts) (polls ++ [s])) := by
  unfold openRow
  rw [List.getLast?_concat, Option.map_some]

theorem storedRows_of_ne {old polls : List Sample} {s : Sample} {t : ℤ}
    (now : bucket res10m s.ts ≠ t) (same : Settled t (polls ++ [s]) ↔ Settled t polls) :
    storedRows old (polls ++ [s]) t = storedRows old polls t := by
  have row : rowOf (old ++ (polls ++ [s])) t = rowOf (old ++ polls) t := by
    apply rowOf_congr
    rw [← List.append_assoc, tenMinutes_concat, if_neg now]
  unfold storedRows
  rw [row]
  by_cases h : Settled t polls
  · rw [if_pos h, if_pos (same.mpr h)]
  · rw [if_neg h, if_neg (mt same.mp h)]

/-- Nothing is stored of the ten minutes of the newest poll. -/
theorem storedRows_newest {old polls : List Sample} {s : Sample}
    (inOrder : InOrder (polls ++ [s])) :
    storedRows old (polls ++ [s]) (bucket res10m s.ts) = none :=
  if_neg (not_settled_newest inOrder)

theorem gateStep_same {t : ℤ} {log : LogDelta} {db : RollupDb} {s : Sample} {replace : Bool}
    (h : t = bucket res10m s.ts) :
    gateStep (some (t, log)) db s replace = (some (t, log.merge s.log), db) := if_pos h

theorem gateStep_next {t : ℤ} {log : LogDelta} {db : RollupDb} {s : Sample} {replace : Bool}
    (h : t ≠ bucket res10m s.ts) :
    gateStep (some (t, log)) db s replace =
      (some (bucket res10m s.ts, ({} : LogDelta).merge s.log), db.writeGatelog t log replace) :=
  if_neg h

/-- The row of ten minutes written for the first time. -/
theorem writeGatelog_new {db : RollupDb} {b : ℤ} (log : LogDelta) (replace : Bool)
    (none_there : db.gatelog b = none) (t : ℤ) :
    (db.writeGatelog b log replace).gatelog t =
      if t = b then (if log.isEmpty then none else some log) else db.gatelog t := by
  unfold RollupDb.writeGatelog
  by_cases empty : log.isEmpty = true
  · rw [if_pos empty, if_pos empty]
    split
    · rename_i h
      rw [h, none_there]
    · rfl
  · rw [if_neg empty, if_neg empty]
    dsimp only
    rw [none_there, Option.none_or]
    split
    · split <;> rfl
    · rfl

/-- The step lemma: a push keeps the state as the polls say. -/
theorem After.push {old polls done : List Sample} {st : LoopState} (h : After old polls done st)
    (f : Feed) (inOrder : InOrder (polls ++ [f.sample]))
    (earlier : Earlier old (polls ++ [f.sample])) :
    After old (polls ++ [f.sample]) done (st.step (.push f)) := by
  obtain ⟨gate, log⟩ := push_gate st.pipeline st.db f
  have newest := tenMinutes_old earlier (List.mem_append_right polls (List.mem_singleton.mpr rfl))
  have gate_eq : (st.step (.push f)).pipeline.gate =
      (gateStep st.pipeline.gate st.db f.sample f.replace).1 := gate
  have log_eq : (st.step (.push f)).db.gatelog =
      (gateStep st.pipeline.gate st.db f.sample f.replace).2.gatelog := log
  have none_polled : ∀ xs : List Sample, xs = [] → storedRows old xs (bucket res10m f.sample.ts) =
      none := by
    intro xs hxs
    unfold storedRows
    rw [hxs, List.append_nil, rowOf_of_empty newest, ite_self]
  cases polls using List.reverseRecOn with
  | nil =>
      have closed : st.pipeline.gate = none := h.gate
      rw [closed] at gate_eq log_eq
      refine ⟨?_, ?_, h.gateOpen⟩
      · rw [gate_eq, openRow_concat, tenMinutes_concat, if_pos rfl]
        rfl
      · intro t
        rw [log_eq]
        show st.db.gatelog t = _
        rw [h.rows]
        by_cases now : bucket res10m f.sample.ts = t
        · rw [← now, storedRows_newest inOrder, none_polled [] rfl]
        · rw [storedRows_of_ne now]
          unfold Settled
          rw [tenMinutes_concat, if_neg now]
          exact ⟨fun _ => Or.inr rfl, fun _ => Or.inr rfl⟩
  | append_singleton polls last _ =>
      have order_before : InOrder (polls ++ [last]) := (List.pairwise_append.mp inOrder).1
      have open_before : st.pipeline.gate = some (bucket res10m last.ts,
          merged (tenMinutes (bucket res10m last.ts) (polls ++ [last]))) := by
        rw [h.gate, openRow_concat, Option.map_some]
      rw [open_before] at gate_eq log_eq
      by_cases same : bucket res10m last.ts = bucket res10m f.sample.ts
      · rw [gateStep_same same] at gate_eq log_eq
        refine ⟨?_, ?_, h.gateOpen⟩
        · rw [gate_eq, openRow_concat, Option.map_some, tenMinutes_concat _ _ f.sample,
            if_pos rfl, merged_concat, same]
        · intro t
          rw [log_eq]
          show st.db.gatelog t = _
          rw [h.rows]
          by_cases now : bucket res10m f.sample.ts = t
          · rw [← now, storedRows_newest inOrder, ← same, storedRows_newest order_before]
          · rw [storedRows_of_ne now (settled_concat order_before (same.trans_ne now) now)]
      · rw [gateStep_next same] at gate_eq log_eq
        have le := bucket_le_of_inOrder inOrder
          (List.mem_append_right polls (List.mem_singleton.mpr rfl))
        have nothing_now : tenMinutes (bucket res10m f.sample.ts) (polls ++ [last]) = [] := by
          apply inBucket_eq_nil
          intro x hx
          have le_last : bucket res10m x.ts ≤ bucket res10m last.ts := by
            cases List.mem_append.mp hx with
            | inl hx => exact bucket_le_of_inOrder order_before hx
            | inr hx => rw [List.mem_singleton.mp hx]
          have lt := lt_of_le_of_ne le same
          omega
        refine ⟨?_, ?_, h.gateOpen⟩
        · rw [gate_eq, openRow_concat, Option.map_some, tenMinutes_concat _ _ f.sample,
            if_pos rfl, nothing_now]
          rfl
        · intro t
          rw [log_eq]
          show (st.db.writeGatelog _ _ _).gatelog t = _
          rw [writeGatelog_new _ _ (by rw [h.rows, storedRows_newest order_before]; rfl)]
          by_cases before : t = bucket res10m last.ts
          · have ended : Settled t (polls ++ [last] ++ [f.sample]) :=
              Or.inl ⟨f.sample, List.mem_append_right _ (List.mem_singleton.mpr rfl), by
                rw [before]
                exact lt_of_le_of_ne le same⟩
            have old_empty : tenMinutes t old = [] := by
              rw [before]
              exact tenMinutes_old earlier (List.mem_append_left _
                (List.mem_append_right polls (List.mem_singleton.mpr rfl)))
            have polled : tenMinutes t (old ++ (polls ++ [last] ++ [f.sample])) =
                tenMinutes (bucket res10m last.ts) (polls ++ [last]) := by
              rw [← List.append_assoc, tenMinutes_concat, if_neg (by omega)]
              unfold tenMinutes at old_empty ⊢
              rw [inBucket_append, old_empty, List.nil_append, before]
            unfold storedRows rowOf
            rw [if_pos before, if_pos ended, polled]
            split
            · rfl
            · rfl
          · rw [if_neg before, h.rows]
            by_cases now : bucket res10m f.sample.ts = t
            · rw [← now, storedRows_newest inOrder]
              unfold storedRows
              rw [rowOf_of_empty (by
                unfold tenMinutes at newest nothing_now ⊢
                rw [inBucket_append, newest, nothing_now, List.append_nil]), ite_self]
            · rw [storedRows_of_ne now (settled_concat order_before (Ne.symm before) now)]

theorem After.publish {old polls done : List Sample} {st : LoopState} (h : After old polls done st) :
    After old polls polls (st.step .publish) := ⟨h.gate, h.rows, h.gate⟩

theorem pushed_append (es fs : List LoopEvent) : pushed (es ++ fs) = pushed es ++ pushed fs := by
  induction es with
  | nil => rfl
  | cons e es ih =>
      cases e with
      | push f => exact congrArg (f.sample :: ·) ih
      | publish => exact ih

/-- The run lemma: after any events the state is as the polls say. -/
theorem After.run {old polls done : List Sample} {st : LoopState} (h : After old polls done st)
    (events : List LoopEvent) (inOrder : InOrder (polls ++ pushed events))
    (earlier : Earlier old (polls ++ pushed events)) :
    After old (polls ++ pushed events) (shownFrom polls done events) (st.run events) := by
  induction events generalizing polls done st with
  | nil =>
      unfold pushed shownFrom LoopState.run
      rw [List.append_nil]
      exact h
  | cons e events ih =>
      cases e with
      | push f =>
          have split : polls ++ pushed (.push f :: events) = polls ++ [f.sample] ++ pushed events :=
            (List.append_assoc polls [f.sample] (pushed events)).symm
          rw [split] at inOrder earlier ⊢
          have step := h.push f (List.pairwise_append.mp inOrder).1
            fun x hx s hs => earlier x hx s (List.mem_append_left _ hs)
          exact ih step inOrder earlier
      | publish => exact ih h.publish inOrder earlier

/-- What a complete cycle had in it is a beginning of what was pushed. -/
theorem shownFrom_le {done shown : List Sample} (events : List LoopEvent)
    (h : shown <+: done) : shownFrom done shown events <+: done ++ pushed events := by
  induction events generalizing done shown with
  | nil =>
      unfold pushed shownFrom
      rw [List.append_nil]
      exact h
  | cons e events ih =>
      cases e with
      | push f =>
          have le := ih (h.trans (List.prefix_append done [f.sample]))
          rw [List.append_assoc] at le
          exact le
      | publish => exact ih (List.prefix_refl done)

/-! ## The rows of a stretch of time -/

/-- The round ten minutes of a stretch of time. -/
theorem mem_starts {start stop t : ℤ} :
    (∃ i ∈ List.range ((stop - -bucket res10m (-start) + res10m - 1) / res10m).toNat,
        -bucket res10m (-start) + res10m * (i : ℤ) = t) ↔
      res10m ∣ t ∧ start ≤ t ∧ t < stop := by
  have ten : res10m = 600 := rfl
  unfold bucket
  rw [ten]
  constructor
  · rintro ⟨i, hi, rfl⟩
    rw [List.mem_range] at hi
    refine ⟨?_, by omega, by omega⟩
    apply Int.dvd_of_emod_eq_zero
    omega
  · rintro ⟨hd, ge, lt⟩
    have multiple := Int.emod_eq_zero_of_dvd hd
    refine ⟨((t - -(-start - -start % 600)) / 600).toNat, ?_, ?_⟩
    · rw [List.mem_range]
      omega
    · omega

theorem mem_rowsBetween {β : Type} {rows : ℤ → Option β} {start stop : ℤ} {e : ℤ × β} :
    e ∈ rowsBetween rows start stop ↔
      (res10m ∣ e.1 ∧ start ≤ e.1 ∧ e.1 < stop) ∧ rows e.1 = some e.2 := by
  unfold rowsBetween
  dsimp only
  rw [List.mem_filterMap, ← mem_starts]
  constructor
  · rintro ⟨t, ht, he⟩
    obtain ⟨row, hrow, rfl⟩ := Option.map_eq_some_iff.mp he
    exact ⟨List.mem_map.mp ht, hrow⟩
  · rintro ⟨ht, hrow⟩
    refine ⟨e.1, List.mem_map.mpr ht, ?_⟩
    rw [hrow]
    rfl

theorem rowsBetween_distinct {β : Type} (rows : ℤ → Option β) (start stop : ℤ) :
    (rowsBetween rows start stop).Pairwise fun d e => d.1 ≠ e.1 := by
  unfold rowsBetween
  dsimp only
  rw [List.pairwise_filterMap, List.pairwise_map]
  refine List.Pairwise.imp ?_ List.pairwise_lt_range
  intro i j hij d hd e he
  obtain ⟨_, _, rfl⟩ := Option.map_eq_some_iff.mp hd
  obtain ⟨_, _, rfl⟩ := Option.map_eq_some_iff.mp he
  have ten : res10m = 600 := rfl
  show -bucket res10m (-start) + res10m * (i : ℤ) ≠ -bucket res10m (-start) + res10m * (j : ℤ)
  rw [ten]
  omega

theorem rowsBetween_map {β γ : Type} (rows : ℤ → Option β) (f : β → γ) (start stop : ℤ) :
    rowsBetween (fun t => (rows t).map f) start stop =
      (rowsBetween rows start stop).map fun e => (e.1, f e.2) := by
  unfold rowsBetween
  dsimp only
  rw [List.map_filterMap]
  apply List.filterMap_congr
  intro t _
  cases rows t <;> rfl

/-! ## The claim -/

/-- No poll with records is counted twice. -/
def CountsOnce (entries : List (ℤ × List Sample)) : Prop := (countedPolls entries).Nodup

/-- A poll in range whose records are missing is of a cycle that was not complete. -/
def MissesOnlyNew (old : List Sample) (before : List LoopEvent) (now range : ℤ)
    (entries : List (ℤ × List Sample)) : Prop :=
  ∀ s ∈ old ++ shown before, Recorded s → bucket res10m (now - range) ≤ s.ts → s.ts ≤ now →
    s ∈ countedPolls entries

/-- The ten minutes that were taken have records, lie in the range, and were over when the stored
ones were read. -/
def ClosedBetween (before between : List LoopEvent) (now range : ℤ) : Prop :=
  ∃ r ∈ openRow (shown before), (∃ s ∈ r.2, Recorded s) ∧
    Closed Sample.ts res10m r.1 (pushed (before ++ between)) ∧
    bucket res10m (now - range) ≤ r.1 ∧ r.1 ≤ now

theorem storedRows_eq_some {old polls ss : List Sample} {t : ℤ}
    (h : storedRows old polls t = some ss) :
    Settled t polls ∧ ss = tenMinutes t (old ++ polls) := by
  unfold storedRows at h
  split at h
  · rename_i settled
    unfold rowOf at h
    split at h
    · cases h
    · exact ⟨settled, (Option.some.inj h).symm⟩
  · cases h

/-- A poll with records is in the stored row of its ten minutes when they are over. -/
theorem mem_storedRows {old polls : List Sample} {s : Sample} (hs : s ∈ old ++ polls)
    (recorded : Recorded s) (settled : Settled (bucket res10m s.ts) polls) :
    storedRows old polls (bucket res10m s.ts) =
        some (tenMinutes (bucket res10m s.ts) (old ++ polls)) ∧
      s ∈ tenMinutes (bucket res10m s.ts) (old ++ polls) := by
  have mem : s ∈ tenMinutes (bucket res10m s.ts) (old ++ polls) :=
    List.mem_filter.mpr ⟨hs, decide_eq_true rfl⟩
  refine ⟨?_, mem⟩
  unfold storedRows rowOf
  rw [if_pos settled, if_neg]
  intro empty
  exact (isEmpty_merged _).mp empty s mem recorded

theorem mem_openRow {polls : List Sample} {r : ℤ × List Sample} (h : r ∈ openRow polls) :
    ∃ s ∈ polls, r = (bucket res10m s.ts, tenMinutes (bucket res10m s.ts) polls) ∧
      polls.getLast? = some s := by
  obtain ⟨s, hs, rfl⟩ := Option.map_eq_some_iff.mp h
  exact ⟨s, List.mem_of_getLast? hs, rfl, hs⟩

section Answers

variable {old : List Sample} {before between : List LoopEvent} {now range : ℤ}
  (inOrder : InOrder (old ++ pushed (before ++ between)))
  (earlier : Earlier old (pushed (before ++ between)))

/-- The stored rows an answer reads. -/
abbrev rowsRead (old : List Sample) (before between : List LoopEvent) (now range : ℤ) :
    List (ℤ × List Sample) :=
  rowsBetween (storedRows old (pushed (before ++ between))) (bucket res10m (now - range)) (now + 1)

theorem mem_countedPolls {entries : List (ℤ × List Sample)} {s : Sample} :
    s ∈ countedPolls entries ↔ Recorded s ∧ ∃ e ∈ entries, s ∈ e.2 := by
  unfold countedPolls
  rw [List.mem_filter, List.mem_flatMap, decide_eq_true_eq]
  exact and_comm

theorem countedPolls_append (es fs : List (ℤ × List Sample)) :
    countedPolls (es ++ fs) = countedPolls es ++ countedPolls fs := by
  unfold countedPolls
  rw [List.flatMap_append, List.filter_append]

theorem shown_sub {s : Sample} (hs : s ∈ shown before) : s ∈ pushed (before ++ between) := by
  have le := shownFrom_le before (List.prefix_refl ([] : List Sample))
  rw [List.nil_append] at le
  rw [pushed_append]
  exact List.mem_append_left _ (le.subset hs)

include inOrder

theorem nodup_polls : (old ++ pushed (before ++ between)).Nodup :=
  inOrder.imp fun lt e => absurd lt (by rw [e]; exact lt_irrefl _)

/-- The stored rows count each poll once. -/
theorem nodup_rowsRead : (countedPolls (rowsRead old before between now range)).Nodup := by
  refine List.Nodup.filter _ (List.nodup_flatMap.mpr ?_)
  constructor
  · intro e he
    obtain ⟨_, row⟩ := mem_rowsBetween.mp he
    rw [(storedRows_eq_some row).2]
    exact (nodup_polls inOrder).filter _
  · refine (List.pairwise_iff_forall_sublist.mpr ?_)
    intro d e sub
    have distinct := List.pairwise_iff_forall_sublist.mp
      (rowsBetween_distinct (storedRows old (pushed (before ++ between)))
        (bucket res10m (now - range)) (now + 1)) sub
    have hd := (mem_rowsBetween.mp (sub.subset List.mem_cons_self)).2
    have he := (mem_rowsBetween.mp (sub.subset
      (List.mem_cons_of_mem d (List.mem_singleton.mpr rfl)))).2
    intro x hxd hxe
    rw [(storedRows_eq_some hd).2] at hxd
    rw [(storedRows_eq_some he).2] at hxe
    have kd := of_decide_eq_true (List.mem_filter.mp hxd).2
    have ke := of_decide_eq_true (List.mem_filter.mp hxe).2
    exact distinct (kd.symm.trans ke)

/-- The open ten minutes hold each poll once. -/
theorem nodup_openRow : (countedPolls (openRow (shown before)).toList).Nodup := by
  refine List.Nodup.filter _ ?_
  cases hr : openRow (shown before) with
  | none => exact List.nodup_nil
  | some r =>
      obtain ⟨s, _, rfl, _⟩ := mem_openRow hr
      have le := shownFrom_le before (List.prefix_refl ([] : List Sample))
      rw [List.nil_append] at le
      have nodup := (List.nodup_append.mp (nodup_polls inOrder)).2.1
      rw [pushed_append] at nodup
      rw [Option.toList_some, List.flatMap_singleton]
      exact List.Nodup.filter _ ((List.nodup_append.mp nodup).1.sublist le.sublist)

/-- A poll is counted twice exactly when the ten minutes that were taken ended before the stored
ones were read. -/
theorem countsOnce_iff : CountsOnce (sources old before between now range) ↔
    ¬ClosedBetween before between now range := by
  unfold CountsOnce sources
  rw [countedPolls_append, List.nodup_append]
  constructor
  · rintro ⟨_, _, disjoint⟩ ⟨r, hr, ⟨s, hs, recorded⟩, ended, first, last⟩
    obtain ⟨newest, _, rfl, _⟩ := mem_openRow hr
    obtain ⟨hshown, at_key⟩ := List.mem_filter.mp hs
    have key := of_decide_eq_true at_key
    have settled : Settled (bucket res10m s.ts) (pushed (before ++ between)) := by
      rw [key]
      exact Or.inl ended
    have mem_all : s ∈ old ++ pushed (before ++ between) :=
      List.mem_append_right old (shown_sub hshown)
    obtain ⟨row, mem⟩ := mem_storedRows mem_all recorded settled
    refine disjoint s ?_ s ?_ rfl
    · refine mem_countedPolls.mpr ⟨recorded,
        (bucket res10m s.ts, tenMinutes (bucket res10m s.ts) (old ++ pushed (before ++ between))),
        mem_rowsBetween.mpr ⟨⟨?_, ?_, ?_⟩, row⟩, mem⟩
      · exact bucket_dvd s.ts
      · show _ ≤ bucket res10m s.ts
        rw [key]
        exact first
      · show bucket res10m s.ts < now + 1
        rw [key]
        have : bucket res10m newest.ts ≤ now := last
        omega
    · exact mem_countedPolls.mpr ⟨recorded, _, by rw [Option.mem_toList]; exact hr, hs⟩
  · intro apart
    refine ⟨nodup_rowsRead inOrder, nodup_openRow inOrder, ?_⟩
    rintro x hrow _ hopen rfl
    obtain ⟨recorded, e, he, hxe⟩ := mem_countedPolls.mp hrow
    obtain ⟨_, r, hr, hxr⟩ := mem_countedPolls.mp hopen
    rw [Option.mem_toList] at hr
    obtain ⟨⟨_, first, last⟩, row⟩ := mem_rowsBetween.mp he
    obtain ⟨settled, polls⟩ := storedRows_eq_some row
    obtain ⟨newest, _, shape, _⟩ := mem_openRow hr
    rw [polls] at hxe
    have key := of_decide_eq_true (List.mem_filter.mp hxe).2
    have mem_shown := hxr
    rw [shape] at mem_shown
    obtain ⟨hshown, at_open⟩ := List.mem_filter.mp mem_shown
    have key' := of_decide_eq_true at_open
    have same : r.1 = e.1 := by
      rw [shape]
      exact key'.symm.trans key
    refine apart ⟨r, hr, ⟨x, hxr, recorded⟩, ?_, by rw [same]; exact first, by omega⟩
    rw [same]
    cases settled with
    | inl ended => exact ended
    | inr none_there =>
        have here : x ∈ tenMinutes e.1 (pushed (before ++ between)) :=
          List.mem_filter.mpr ⟨shown_sub hshown, decide_eq_true key⟩
        rw [none_there] at here
        exact nomatch here

include earlier

/-- Nothing that was stored, or in the pipeline at the end of a cycle, is missing. -/
theorem missesOnlyNew :
    MissesOnlyNew old before now range (sources old before between now range) := by
  intro s hs recorded first last
  unfold sources
  rw [countedPolls_append, List.mem_append]
  have stored : Settled (bucket res10m s.ts) (pushed (before ++ between)) →
      s ∈ old ++ pushed (before ++ between) →
      s ∈ countedPolls (rowsRead old before between now range) := by
    intro settled hs
    obtain ⟨row, mem⟩ := mem_storedRows hs recorded settled
    refine mem_countedPolls.mpr ⟨recorded,
      (bucket res10m s.ts, tenMinutes (bucket res10m s.ts) (old ++ pushed (before ++ between))),
      mem_rowsBetween.mpr ⟨⟨bucket_dvd s.ts, ?_, ?_⟩, row⟩, mem⟩
    · exact (le_bucket_iff (by decide) (bucket_dvd (now - range)) s.ts).mpr first
    · have le : bucket res10m s.ts ≤ s.ts := bucket_le (by decide) s.ts
      exact lt_of_le_of_lt (le.trans last) (Int.lt_succ now)
  cases List.mem_append.mp hs with
  | inl hold =>
      refine Or.inl (stored (Or.inr ?_) (List.mem_append_left _ hold))
      exact inBucket_eq_nil fun x hx => ne_of_gt (earlier s hold x hx)
  | inr hshown =>
      have is_newest := List.getLast?_eq_getLast_of_ne_nil (List.ne_nil_of_mem hshown)
      generalize (shown before).getLast _ = newest at is_newest
      obtain ⟨done, split⟩ := List.getLast?_eq_some_iff.mp is_newest
      have hnewest : newest ∈ shown before := List.mem_of_getLast? is_newest
      have row : (bucket res10m newest.ts, tenMinutes (bucket res10m newest.ts) (shown before)) ∈
          openRow (shown before) := by
        unfold openRow
        rw [is_newest]
        rfl
      by_cases same : bucket res10m s.ts = bucket res10m newest.ts
      · -- the poll is in the ten minutes that were taken
        have there : s ∈ tenMinutes (bucket res10m newest.ts) (shown before) :=
          List.mem_filter.mpr ⟨hshown, decide_eq_true same⟩
        exact Or.inr (mem_countedPolls.mpr ⟨recorded, _, Option.mem_toList.mpr row, there⟩)
      · -- a later poll of a complete cycle has closed its ten minutes
        have le := shownFrom_le before (List.prefix_refl ([] : List Sample))
        rw [List.nil_append] at le
        have order : InOrder (shown before) := by
          rw [pushed_append] at inOrder
          have pushed_order := (List.pairwise_append.mp inOrder).2.1
          exact ((List.pairwise_append.mp pushed_order).1).sublist le.sublist
        have at_most : bucket res10m s.ts ≤ bucket res10m newest.ts := by
          rw [split] at hshown order
          cases List.mem_append.mp hshown with
          | inl h => exact bucket_le_of_inOrder order h
          | inr h => rw [List.mem_singleton.mp h]
        refine Or.inl (stored (Or.inl ⟨newest, shown_sub hnewest, ?_⟩)
          (List.mem_append_right _ (shown_sub hshown)))
        exact lt_of_le_of_ne at_most same

end Answers

/-- An answer for more than an hour adds up the stored and the open ten minutes. It counts no poll
twice, and misses none of a complete cycle, exactly when the ten minutes it took were not closed
before it read the stored ones. -/
theorem gateway_counts_once_iff {old : List Sample} {st₀ : LoopState} (start : After old [] [] st₀)
    (before between : List LoopEvent) (samples : List Sample) (now range : ℤ)
    (inOrder : InOrder (old ++ pushed (before ++ between)))
    (earlier : Earlier old (pushed (before ++ between))) (long : 3600 < range) :
    st₀.answer before between samples now range =
        (sources old before between now range).map (fun e => (e.1, merged e.2)) ∧
      ((CountsOnce (sources old before between now range) ∧
          MissesOnlyNew old before now range (sources old before between now range)) ↔
        ¬ClosedBetween before between now range) := by
  constructor
  · have order := (List.pairwise_append.mp inOrder).2.1
    have all := start.run (before ++ between) order earlier
    have taken := start.run before
      (by rw [pushed_append] at order; exact (List.pairwise_append.mp order).1)
      (by
        intro x hx s hs
        apply earlier x hx s
        rw [pushed_append]
        exact List.mem_append_left _ hs)
    have run_append : st₀.run (before ++ between) = (st₀.run before).run between :=
      List.foldl_append
    rw [run_append] at all
    unfold LoopState.answer gatewayEntries eachGatelog sources
    dsimp only
    rw [if_neg (not_le.mpr long), taken.gateOpen, List.map_append, funext all.rows, rowsBetween_map]
    congr 1
    unfold shown
    cases openRow (shownFrom [] [] before) <;> rfl
  · constructor
    · exact fun h => (countsOnce_iff inOrder).mp h.1
    · exact fun h => ⟨(countsOnce_iff inOrder).mpr h, missesOnlyNew inOrder earlier⟩


/-! ## Runs -/

/-- A pipeline with nothing in it has polled nothing. -/
theorem after_start : After [] [] [] {} where
  gate := rfl
  rows := by
    intro t
    unfold storedRows
    rw [rowOf_of_empty rfl, ite_self]
    rfl
  gateOpen := rfl

/-- A poll that found one request in the log. -/
def oneRequest (ts : ℤ) : LoopEvent :=
  .push { sample := { ts := ts, log := { publicLane := { requests := 1 } } } }

/-- A poll that found none. -/
def noRequest (ts : ℤ) : LoopEvent := .push { sample := { ts := ts } }

theorem an_open_bucket_is_counted_once :
    let before := [oneRequest 1000, .publish]
    let between := [oneRequest 1005]
    CountsOnce (sources [] before between 1010 7200) ∧
      MissesOnlyNew [] before 1010 7200 (sources [] before between 1010 7200) := by
  dsimp only
  have inOrder : InOrder ([] ++ pushed ([oneRequest 1000, .publish] ++ [oneRequest 1005])) := by
    exact List.pairwise_pair.mpr (by decide)
  have earlier : Earlier [] (pushed ([oneRequest 1000, .publish] ++ [oneRequest 1005])) :=
    fun x hx => nomatch hx
  refine (gateway_counts_once_iff after_start _ _ [] 1010 7200 inOrder earlier
    (by decide)).2.mpr ?_
  rintro ⟨r, hr, _, ⟨s, hs, later⟩, _⟩
  obtain ⟨x, hx, rfl, _⟩ := mem_openRow hr
  have six : bucket res10m x.ts = 600 := by
    rw [List.mem_singleton.mp hx]
    rfl
  rw [six] at later
  cases hs with
  | head => exact absurd later (by decide)
  | tail _ hs =>
      rw [List.mem_singleton.mp hs] at later
      exact absurd later (by decide)

/-- The ten minutes of one request are taken, close, and are read again: it is counted twice. -/
theorem a_closed_bucket_is_counted_twice :
    ¬CountsOnce (sources [] [oneRequest 1000, .publish] [noRequest 1205] 1210 7200) ∧
      ((({} : LoopState).answer [oneRequest 1000, .publish] [noRequest 1205] [] 1210 7200).foldl
        GatewayLog.fold {}).log.publicLane.requests = 2 := by
  constructor
  · intro once
    have inOrder : InOrder ([] ++ pushed ([oneRequest 1000, .publish] ++ [noRequest 1205])) := by
      exact List.pairwise_pair.mpr (by decide)
    refine (countsOnce_iff inOrder).mp once ⟨_, rfl, ⟨_, List.mem_singleton.mpr rfl, rfl⟩, ?_⟩
    refine ⟨⟨{ ts := 1205 }, ?_, by decide⟩, by decide, by decide⟩
    exact List.mem_cons_of_mem _ (List.mem_singleton.mpr rfl)
  · rfl

end Lss.Analysis.GatewayReads
