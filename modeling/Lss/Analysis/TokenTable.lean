import Lss.Analysis.TokenWindows
import Lss.Model.TokensDoc

/-!
# The table of tokens

The hour lies in the day, the day and the time since midnight in the week. All time is what the
ledger counted and the ten minutes that ended before it began, so what was counted in the ten
minutes in which it began is nowhere in it: the week is no more than all time exactly when all
time has as much that the week has not.
-/

set_option autoImplicit false

namespace Lss.Analysis.TokenTable

open Lss.Library.Buckets Lss.Library.Steps Lss.Model Lss.Analysis.RollupRows
  Lss.Analysis.SampleRows Lss.Analysis.TokenWindows

theorem metric_counted (c : TokenCounter) : c.metric ∈ TokenWindows.counted := by
  cases c <;> simp [TokenCounter.metric, TokenWindows.counted]

/-! ## The windows -/

/-- Where the minutes of a long window begin. -/
def seam (now : ℤ) : ℤ := (now - 86400) - (now - 86400) % 600

/-- A window has the step: a minute or ten minutes that it adds up are over, and the step ends
there. -/
def InWindow (now secs : ℤ) (samples : List Sample) (p : Sample × Sample) : Prop :=
  if secs ≤ 86400 then InRows res1m (now - secs) (now + 1) samples p
  else InRows res10m (now - secs) (seam now) samples p ∨
    InRows res1m (seam now) (now + 1) samples p

instance (now secs : ℤ) (samples : List Sample) : DecidablePred (InWindow now secs samples) :=
  fun p => inferInstanceAs (Decidable (if secs ≤ 86400 then
    InRows res1m (now - secs) (now + 1) samples p
    else InRows res10m (now - secs) (seam now) samples p ∨
      InRows res1m (seam now) (now + 1) samples p))

section Store

variable {fs : List Feed}

/-- The rows of a range add up to what the steps count that end in it, also where the range is
empty. -/
theorem rollupSum_counts (increasing : Increasing (fs.map Feed.sample)) {res : ℤ}
    (hres : res ∈ [res1m, res10m]) (c : TokenCounter) (start stop : ℤ) :
    (({} : Pipeline).pushAll {} fs).2.rollupSum res c.metric start stop =
      counts c.metric (fs.map Feed.sample) (InRows res start stop (fs.map Feed.sample)) := by
  by_cases le : start ≤ stop
  · exact rollupSum_eq increasing hres (metric_counted c) le
  · have empty : (stop - start).toNat = 0 := by omega
    have none_counted : counts c.metric (fs.map Feed.sample)
        (InRows res start stop (fs.map Feed.sample)) = 0 := by
      have no_step : (steps (fs.map Feed.sample)).filter
          (fun p => decide (InRows res start stop (fs.map Feed.sample) p)) = [] := by
        rw [List.filter_eq_nil_iff]
        intro p _ inside
        obtain ⟨⟨ge, lt⟩, -⟩ := of_decide_eq_true inside
        omega
      rw [counts, no_step]
      rfl
    rw [none_counted, RollupDb.rollupSum, RollupDb.rollupRows, empty]
    rfl

theorem seam_dvd {res : ℤ} (hres : res ∈ [res1m, res10m]) (now : ℤ) : res ∣ seam now := by
  have minute : res1m = 60 := rfl
  have ten : res10m = 600 := rfl
  unfold seam
  obtain rfl | rfl := List.mem_pair.mp hres
  · rw [minute]
    omega
  · rw [ten]
    omega

/-- A bucket begins at the seam or later when its times are there. -/
theorem seam_le_bucket {res : ℤ} (hres : res ∈ [res1m, res10m]) (now t : ℤ) :
    seam now ≤ bucket res t ↔ seam now ≤ t :=
  le_bucket_iff (pos_of_mem hres) (seam_dvd hres now) t

/-- A window is what the steps count that it has. -/
theorem windowSum_eq (increasing : Increasing (fs.map Feed.sample)) (now secs : ℤ)
    (c : TokenCounter) : windowSum (({} : Pipeline).pushAll {} fs).2 now secs c =
      counts c.metric (fs.map Feed.sample) (InWindow now secs (fs.map Feed.sample)) := by
  unfold windowSum
  by_cases short : secs ≤ 86400
  · rw [if_pos short, rollupSum_counts increasing (by decide)]
    exact counts_congr fun p _ => by rw [InWindow, if_pos short]
  · -- the days before the seam and the minutes from it on have no step in common
    have from_ten (t : ℤ) : seam now ≤ bucket res10m t ↔ seam now ≤ t :=
      seam_le_bucket (by decide) now t
    have from_minute (t : ℤ) : seam now ≤ bucket res1m t ↔ seam now ≤ t :=
      seam_le_bucket (by decide) now t
    have old : counts c.metric (fs.map Feed.sample)
        (fun p => InWindow now secs (fs.map Feed.sample) p ∧ ¬seam now ≤ p.2.ts) =
        counts c.metric (fs.map Feed.sample)
          (InRows res10m (now - secs) (seam now) (fs.map Feed.sample)) := by
      apply counts_congr
      intro p _
      rw [InWindow, if_neg short, ← from_ten]
      constructor
      · rintro ⟨rows | rows, before⟩
        · exact rows
        · exact absurd ((from_ten _).mpr ((from_minute _).mp rows.1.1)) before
      · intro rows
        exact ⟨.inl rows, not_le.mpr rows.1.2⟩
    have new : counts c.metric (fs.map Feed.sample)
        (fun p => InWindow now secs (fs.map Feed.sample) p ∧ seam now ≤ p.2.ts) =
        counts c.metric (fs.map Feed.sample)
          (InRows res1m (seam now) (now + 1) (fs.map Feed.sample)) := by
      apply counts_congr
      intro p _
      rw [InWindow, if_neg short, ← from_ten]
      constructor
      · rintro ⟨rows | rows, behind⟩
        · exact absurd behind (not_le.mpr rows.1.2)
        · exact rows
      · intro rows
        exact ⟨.inr rows, (from_ten _).mpr ((from_minute _).mp rows.1.1)⟩
    rw [if_neg short, counts_add (InWindow now secs (fs.map Feed.sample))
      (fun p => seam now ≤ p.2.ts), old, new, add_comm]
    exact congrArg₂ (· + ·) (rollupSum_counts increasing (by decide) c _ _)
      (rollupSum_counts increasing (by decide) c _ _)

/-- A longer window has the steps of a shorter one. -/
theorem inWindow_mono {now secs secs' : ℤ} (longer : secs ≤ secs') {samples : List Sample}
    {p : Sample × Sample} (h : InWindow now secs samples p) : InWindow now secs' samples p := by
  have before : seam now ≤ now - 86400 := by
    unfold seam
    omega
  unfold InWindow at h ⊢
  by_cases short : secs ≤ 86400
  · rw [if_pos short] at h
    obtain ⟨⟨ge, lt⟩, closed⟩ := h
    split
    · exact ⟨⟨by omega, lt⟩, closed⟩
    · exact .inr ⟨⟨by omega, lt⟩, closed⟩
  · rw [if_neg short] at h
    rw [if_neg (by omega)]
    obtain ⟨⟨ge, lt⟩, closed⟩ | rows := h
    · exact .inl ⟨⟨by omega, lt⟩, closed⟩
    · exact .inr rows

theorem windowSum_mono (increasing : Increasing (fs.map Feed.sample)) {now secs secs' : ℤ}
    (longer : secs ≤ secs') (c : TokenCounter) :
    windowSum (({} : Pipeline).pushAll {} fs).2 now secs c ≤
      windowSum (({} : Pipeline).pushAll {} fs).2 now secs' c := by
  rw [windowSum_eq increasing, windowSum_eq increasing]
  exact counts_mono (metric_counted c) fun p _ => inWindow_mono longer

/-! ## All time -/

/-- The rows that are added to the ledger. -/
def historyRows (db : RollupDb) (all : AllTime) (c : TokenCounter) : List (ℤ × Agg) :=
  if 0 < all.since then db.rollupRows res10m c.metric 0 (max (all.since - 599) 0) else []

theorem before_eq_rows (db : RollupDb) (all : AllTime) (c : TokenCounter) :
    before db all c = ((historyRows db all c).map fun row => row.2.sum).sum := by
  unfold before historyRows
  split
  · rfl
  · rfl

/-- A row that is added ended before the ledger began. -/
theorem historyRows_ended {db : RollupDb} {all : AllTime} {c : TokenCounter} {row : ℤ × Agg}
    (h : row ∈ historyRows db all c) : row.1 + 600 ≤ all.since := by
  unfold historyRows RollupDb.rollupRows at h
  split at h
  · rw [List.mem_filterMap] at h
    obtain ⟨i, hi, there⟩ := h
    obtain ⟨r, -, rfl⟩ := Option.map_eq_some_iff.mp there
    have lt := List.mem_range.mp hi
    dsimp only
    omega
  · cases h

/-- What is added to the ledger has the step. -/
def InHistory (since : ℤ) (samples : List Sample) (p : Sample × Sample) : Prop :=
  0 < since ∧ InRows res10m 0 (max (since - 599) 0) samples p

instance (since : ℤ) (samples : List Sample) : DecidablePred (InHistory since samples) :=
  fun _ => inferInstanceAs (Decidable (_ ∧ _))

theorem before_eq (increasing : Increasing (fs.map Feed.sample)) (all : AllTime)
    (c : TokenCounter) : before (({} : Pipeline).pushAll {} fs).2 all c =
      counts c.metric (fs.map Feed.sample) (InHistory all.since (fs.map Feed.sample)) := by
  unfold before
  split
  · rename_i began
    rw [rollupSum_counts increasing (by decide)]
    exact counts_congr fun p _ => ⟨fun rows => ⟨began, rows⟩, And.right⟩
  · rename_i not_yet
    have none_added : counts c.metric (fs.map Feed.sample)
        (InHistory all.since (fs.map Feed.sample)) =
        counts c.metric (fs.map Feed.sample) (fun _ => False) :=
      counts_congr fun p _ => ⟨fun added => not_yet added.1, False.elim⟩
    rw [none_added]
    simp [counts]

/-! ## The week and all time -/

/-- The ledger after some samples.
SOURCE: lss-collector/src/main.rs:988-995 -/
def ledgerOf (day : ℤ → String) (read : List Sample) : AllTime :=
  read.foldl (AllTime.observeSample day) {}

/-- The seconds of a week. -/
def week : ℤ := 7 * 86400

/-- When the ledger was first read. -/
def firstReading (read : List Sample) : Option ℤ :=
  (read.find? fun s => s.metrics.isSome).map Sample.ts

section Parts

variable (now since : ℤ) (first : Option ℤ) (samples : List Sample) (p : Sample × Sample)

/-- The week has the step, nothing that is added to the ledger has it, and it ends no later than
the ledger was first read. -/
def Missed : Prop :=
  (InWindow now week samples p ∧ ¬InHistory since samples p) ∧ ∀ t ∈ first, p.2.ts ≤ t

/-- The week has the step, nothing that is added has it, and it ends when the ledger had been
read. -/
def ReadToo : Prop :=
  (InWindow now week samples p ∧ ¬InHistory since samples p) ∧ ¬∀ t ∈ first, p.2.ts ≤ t

/-- What is added to the ledger has the step, the week has not. -/
def Older : Prop := InHistory since samples p ∧ ¬InWindow now week samples p

instance : DecidablePred (Missed now since first samples) :=
  fun _ => inferInstanceAs (Decidable (_ ∧ _))

instance : DecidablePred (ReadToo now since first samples) :=
  fun _ => inferInstanceAs (Decidable (_ ∧ _))

instance : DecidablePred (Older now since samples) :=
  fun _ => inferInstanceAs (Decidable (_ ∧ _))

end Parts

/-- All time has as much that the week has not as it misses of the week: what the ledger counted
beside the week, and the ten minutes that are added from before it. -/
def MadeUp (now : ℤ) (samples : List Sample) (first : Option ℤ) (all : AllTime)
    (c : TokenCounter) : Prop :=
  counts c.metric samples (Missed now all.since first samples) ≤
    (all.counter c).total - counts c.metric samples (ReadToo now all.since first samples) +
      counts c.metric samples (Older now all.since samples)

instance (now : ℤ) (samples : List Sample) (first : Option ℤ) (all : AllTime) (c : TokenCounter) :
    Decidable (MadeUp now samples first all c) := inferInstanceAs (Decidable (_ ≤ _))

theorem week_le_all_iff (increasing : Increasing (fs.map Feed.sample)) (now : ℤ)
    (first : Option ℤ) (all : AllTime) (c : TokenCounter) :
    windowSum (({} : Pipeline).pushAll {} fs).2 now week c ≤
        (all.counter c).total + before (({} : Pipeline).pushAll {} fs).2 all c ↔
      MadeUp now (fs.map Feed.sample) first all c := by
  set samples := fs.map Feed.sample
  -- what the week has beside the history, before the first reading and from it on
  have apart : counts c.metric samples
      (fun p => InWindow now week samples p ∧ ¬InHistory all.since samples p) =
      counts c.metric samples (Missed now all.since first samples) +
        counts c.metric samples (ReadToo now all.since first samples) := by
    rw [counts_add _ fun p => ∀ t ∈ first, p.2.ts ≤ t]
    exact congrArg₂ (· + ·) (counts_congr fun _ _ => Iff.rfl) (counts_congr fun _ _ => Iff.rfl)
  have both : counts c.metric samples
      (fun p => InHistory all.since samples p ∧ InWindow now week samples p) =
      counts c.metric samples
        (fun p => InWindow now week samples p ∧ InHistory all.since samples p) :=
    counts_congr fun _ _ => and_comm
  have older : counts c.metric samples
      (fun p => InHistory all.since samples p ∧ ¬InWindow now week samples p) =
      counts c.metric samples (Older now all.since samples) := counts_congr fun _ _ => Iff.rfl
  rw [windowSum_eq increasing, before_eq increasing,
    counts_add (InWindow now week samples) (InHistory all.since samples),
    counts_add (InHistory all.since samples) (InWindow now week samples), apart, both, older]
  unfold MadeUp
  constructor
  · intro h
    linarith
  · intro h
    linarith

end Store

/-! ## What a step counts -/

theorem values_ite (name : String) (b : Prop) [Decidable b] (points : List (String × ℚ)) :
    values name (if b then points else []) = if b then values name points else [] := by
  split <;> rfl

theorem values_pointIf (name : String) (b : Bool) (other : String) (v : ℚ) :
    values name (pointIf b other v) = if other = name ∧ b = true then [v] else [] := by
  unfold pointIf
  cases b <;> simp [values, List.filter_cons, apply_ite]

theorem values_energyPoints (c : TokenCounter) (p s : Sample) (m : ServeMetrics) :
    values c.metric (energyPoints p s m) = [] := by
  unfold energyPoints
  cases p.watts with
  | none => rfl
  | some a =>
    cases s.watts with
    | none => rfl
    | some b =>
      cases c <;> simp [values_ite, values_cons, values_pointIf, TokenCounter.metric]

theorem values_nil (name : String) : values name [] = [] := rfl

/-- The field an engine reports a counter under. -/
def field : TokenCounter → String
  | .generated | .prompt => "tokens"
  | .cached => "cache_hit"
  | .requests => "requests"

theorem values_counterPoints (c : TokenCounter) (p s : Sample) (pm m : ServeMetrics) :
    values c.metric (counterPoints p s pm m) =
      if s.reported (field c) then
        if m.comparable pm ∧ pm.counter c ≤ m.counter c then [m.counter c - pm.counter c] else []
      else [] := by
  unfold counterPoints
  simp only [values_append, values_energyPoints]
  cases c <;>
    simp [values_ite, values_append, values_nil, values_cons, values_pointIf, grownPoint,
      TokenCounter.metric, ServeMetrics.counter, field] <;>
    congr

theorem grown_le_added {c : TokenCounter} {p s : Sample} {pm m : ServeMetrics}
    (before : p.metrics = some pm) (now : s.metrics = some m) {t : CounterTotal}
    (last : t.last = some (pm.counter c)) (positive : 0 ≤ pm.counter c)
    (positive_now : 0 ≤ m.counter c) (reset : Bool) :
    TokenWindows.grown c.metric (p, s) ≤ t.added (m.counter c) reset := by
  have added : max (m.counter c - pm.counter c) 0 ≤ t.added (m.counter c) reset := by
    unfold CounterTotal.added
    rw [last]
    dsimp only
    split
    · exact max_le (by linarith) positive_now
    · rename_i kept
      have grew : pm.counter c ≤ m.counter c := not_lt.mp fun less => kept (.inr less)
      exact max_le le_rfl (sub_nonneg.mpr grew)
  refine le_trans ?_ added
  unfold TokenWindows.grown stepPoints
  rw [before, now]
  dsimp only
  split
  · rw [values_counterPoints]
    split
    · split
      · rw [List.sum_singleton]
        exact le_max_left _ _
      · exact le_max_right _ _
    · exact le_max_right _ _
  · exact le_max_right _ _

/-! ## What the ledger has besides -/

section Ledger

variable {day : ℤ → String} {c : TokenCounter}

/-- What a ledger that read some samples remembers of them and has of a counter: the last reading,
and no less than the steps count that end behind the first one. -/
structure Read (earlier read : List Sample) (all : AllTime) (c : TokenCounter) : Prop where
  unread : firstReading read = none → all = {}
  last : ∀ s ∈ read.getLast?, ∀ m ∈ s.metrics, (all.counter c).last = some (m.counter c)
  positive : ∀ l ∈ (all.counter c).last, 0 ≤ l
  total : counts c.metric (earlier ++ read) (fun p => ¬∀ t ∈ firstReading read, p.2.ts ≤ t) ≤
    (all.counter c).total

theorem counts_concat {name : String} {samples : List Sample} {s : Sample}
    {keep : Sample × Sample → Prop} [DecidablePred keep] :
    counts name (samples ++ [s]) keep = counts name samples keep +
      samples.getLast?.elim 0 fun x =>
        if keep (x, s) then TokenWindows.grown name (x, s) else 0 := by
  unfold counts
  rw [steps_concat, List.filter_append, List.map_append, List.sum_append]
  cases samples.getLast? with
  | none => rfl
  | some x =>
      by_cases kept : keep (x, s)
      · simp [kept]
      · simp [kept]

theorem firstReading_concat (read : List Sample) (s : Sample) : firstReading (read ++ [s]) =
    (firstReading read).or (if s.metrics.isSome then some s.ts else none) := by
  unfold firstReading
  rw [List.find?_append]
  cases read.find? fun s => s.metrics.isSome with
  | some x => rfl
  | none =>
      by_cases metered : s.metrics.isSome = true
      · simp [metered]
      · simp [metered]

theorem added_nonneg {t : CounterTotal} {v : ℚ} (h : 0 ≤ v) (reset : Bool) :
    0 ≤ t.added v reset := by
  unfold CounterTotal.added
  cases t.last with
  | none => exact le_rfl
  | some l =>
      dsimp only
      split
      · exact h
      · rename_i kept
        exact sub_nonneg.mpr (not_lt.mp fun less => kept (.inr less))

theorem counts_none {name : String} {samples : List Sample} {keep : Sample × Sample → Prop}
    [DecidablePred keep] (h : ∀ p ∈ steps samples, ¬keep p) : counts name samples keep = 0 := by
  have no_step : (steps samples).filter (fun p => decide (keep p)) = [] := by
    rw [List.filter_eq_nil_iff]
    intro p hp kept
    exact h p hp (of_decide_eq_true kept)
  rw [counts, no_step]
  rfl

theorem grown_of_none {name : String} {p s : Sample} (h : p.metrics = none ∨ s.metrics = none) :
    TokenWindows.grown name (p, s) = 0 := by
  have no_points : stepPoints p s = [] := by
    unfold stepPoints
    obtain before | now := h
    · rw [before]
    · rw [now]
      cases p.metrics <;> rfl
  rw [TokenWindows.grown, no_points]
  rfl

/-- One more sample. -/
theorem Read.step {earlier read : List Sample} {all : AllTime} (h : Read earlier read all c)
    {s : Sample} (increasing : Increasing ((earlier ++ read) ++ [s]))
    (positive : ∀ m ∈ s.metrics, 0 ≤ m.counter c) :
    Read earlier (read ++ [s]) (all.observeSample day s) c := by
  have later : ∀ x ∈ earlier ++ read, x.ts < s.ts := by
    intro x hx
    exact (List.pairwise_append.mp increasing).2.2 x hx s (by simp)
  unfold AllTime.observeSample
  cases metered : s.metrics with
  | none =>
      have first : firstReading (read ++ [s]) = firstReading read := by
        rw [firstReading_concat, metered]
        exact Option.or_none
      refine ⟨fun unread => h.unread (first ▸ unread), ?_, h.positive, ?_⟩
      · intro x hx m hm
        rw [List.getLast?_concat, Option.mem_some_iff] at hx
        rw [← hx, metered] at hm
        cases hm
      · refine le_trans (le_of_eq ?_) h.total
        rw [first, ← List.append_assoc, counts_concat]
        cases (earlier ++ read).getLast? with
        | none => exact add_zero _
        | some x =>
            rw [Option.elim_some, grown_of_none (.inr metered), ite_self, add_zero]
  | some m =>
      have value : 0 ≤ m.counter c := positive m metered
      have observed : (all.observe s.ts (day s.ts) (s.serveCt.elim 0 ContainerState.startedAt)
          m).counter c = ⟨(all.counter c).total + (all.counter c).added (m.counter c)
            (all.reset (s.serveCt.elim 0 ContainerState.startedAt)), some (m.counter c)⟩ := by
        rw [AllTime.counter_observe, CounterTotal.observe, if_neg (not_lt.mpr value)]
      have none_lost := added_nonneg (t := all.counter c) value
        (all.reset (s.serveCt.elim 0 ContainerState.startedAt))
      refine ⟨?_, ?_, ?_, ?_⟩
      · intro unread
        rw [firstReading_concat, metered, Option.or_eq_none_iff] at unread
        cases unread.2
      · intro x hx m' hm
        rw [List.getLast?_concat, Option.mem_some_iff] at hx
        rw [← hx, metered, Option.mem_some_iff] at hm
        rw [observed, ← hm]
      · intro l hl
        rw [observed, Option.mem_some_iff] at hl
        rw [← hl]
        exact value
      · rw [observed, firstReading_concat, metered, ← List.append_assoc]
        cases first : firstReading read with
        | none =>
            -- the first reading: every step ends at it or before
            have nothing := h.unread first
            have empty : (all.counter c).total = 0 := by
              rw [nothing]
              cases c <;> rfl
            rw [counts_none, empty, zero_add]
            · exact none_lost
            · intro p hp
              rw [not_not]
              intro t ht
              obtain rfl : s.ts = t := by simpa using ht
              have inside := (mem_of_mem_steps hp).2
              rw [List.mem_append, List.mem_singleton] at inside
              obtain before | rfl := inside
              · exact (later _ before).le
              · exact le_rfl
        | some t =>
            have same : (some t).or (if (some m).isSome then some s.ts else none) = some t := rfl
            have counted := h.total
            rw [first] at counted
            rw [same, counts_concat]
            refine add_le_add counted ?_
            cases back : (earlier ++ read).getLast? with
            | none => exact none_lost
            | some x =>
                rw [Option.elim_some]
                split
                · cases before : x.metrics with
                  | none =>
                      rw [grown_of_none (.inl before)]
                      exact none_lost
                  | some pm =>
                      have behind : x ∈ read.getLast? := by
                        rw [List.getLast?_append] at back
                        cases there : read.getLast? with
                        | none =>
                            rw [List.getLast?_eq_none_iff.mp there] at first
                            cases first
                        | some y => simpa [there] using back
                      have last := h.last x behind pm before
                      exact grown_le_added before metered last (h.positive _ last) value _
                · exact none_lost

/-- The ledger has what the week has from the first reading on. -/
theorem read_ledgerOf {earlier later : List Sample} (increasing : Increasing (earlier ++ later))
    (positive : ∀ s ∈ later, ∀ m ∈ s.metrics, 0 ≤ m.counter c) :
    Read earlier later (ledgerOf day later) c := by
  induction later using List.reverseRecOn with
  | nil =>
      refine ⟨fun _ => rfl, ?_, ?_, ?_⟩
      · intro s hs
        cases hs
      · intro l hl
        cases c <;> cases hl
      · rw [counts_none]
        · cases c <;> exact le_rfl
        · intro p _ behind
          exact behind fun t ht => nomatch ht
  | append_singleton later s ih =>
      rw [← List.append_assoc] at increasing
      have before := ih (List.pairwise_append.mp increasing).1 fun x hx =>
        positive x (List.mem_append_left _ hx)
      rw [ledgerOf, List.foldl_concat]
      exact before.step increasing (positive s (by simp))

theorem readToo_le_total {earlier later : List Sample}
    (increasing : Increasing (earlier ++ later))
    (positive : ∀ s ∈ later, ∀ m ∈ s.metrics, 0 ≤ m.counter c) (now since : ℤ) :
    counts c.metric (earlier ++ later)
      (ReadToo now since (firstReading later) (earlier ++ later)) ≤
      ((ledgerOf day later).counter c).total :=
  (counts_mono (metric_counted c) fun _ _ => And.right).trans
    (read_ledgerOf increasing positive).total

/-- The first reading is no later than any other. -/
theorem exists_firstReading {read : List Sample} (increasing : Increasing read) {s : Sample}
    (hs : s ∈ read) (metered : s.metrics.isSome) : ∃ t ∈ firstReading read, t ≤ s.ts := by
  induction read with
  | nil => cases hs
  | cons x read ih =>
      obtain ⟨later, increasing⟩ := List.pairwise_cons.mp increasing
      unfold firstReading at ih ⊢
      rw [List.find?_cons]
      by_cases here : x.metrics.isSome = true
      · refine ⟨x.ts, by simp [here], ?_⟩
        obtain rfl | behind := List.mem_cons.mp hs
        · exact le_rfl
        · exact (later s behind).le
      · obtain rfl | behind := List.mem_cons.mp hs
        · exact absurd metered here
        · simpa [here] using ih increasing behind

/-- A ledger that was read from the first sample on misses nothing, as long as no counter is below
zero. -/
theorem madeUp_of_whole {samples : List Sample} (increasing : Increasing samples)
    (positive : ∀ s ∈ samples, ∀ m ∈ s.metrics, 0 ≤ m.counter c) (now : ℤ) :
    MadeUp now samples (firstReading samples) (ledgerOf day samples) c := by
  have nothing : counts c.metric samples
      (Missed now (ledgerOf day samples).since (firstReading samples) samples) = 0 := by
    apply List.sum_eq_zero
    intro v hv
    obtain ⟨p, hp, rfl⟩ := List.mem_map.mp hv
    obtain ⟨hp, missed⟩ := List.mem_filter.mp hp
    have early := (of_decide_eq_true missed).2
    have lt : p.1.ts < p.2.ts := rel_of_mem_steps increasing hp
    apply grown_of_none
    by_contra metered
    have read : p.1.metrics.isSome := Option.isSome_iff_ne_none.mpr fun h => metered (.inl h)
    obtain ⟨t, ht, le⟩ := exists_firstReading increasing (mem_of_mem_steps hp).1 read
    have later := early t ht
    omega
  have counted : counts c.metric samples
      (ReadToo now (ledgerOf day samples).since (firstReading samples) samples) ≤
      ((ledgerOf day samples).counter c).total :=
    @readToo_le_total day c [] samples increasing positive now (ledgerOf day samples).since
  have older : 0 ≤ counts c.metric samples (Older now (ledgerOf day samples).since samples) :=
    counts_nonneg (metric_counted c)
  unfold MadeUp
  linarith

/-- What is missed ends in the ten minutes in which the ledger was first read. -/
theorem bucket_of_missed {now t : ℤ} {samples : List Sample} {p : Sample × Sample}
    (there : ∃ s ∈ samples, s.ts = t) (after_zero : 0 ≤ p.2.ts) (began : 0 < t)
    (missed : Missed now t (some t) samples p) : bucket res10m p.2.ts = bucket res10m t := by
  have ten : res10m = 600 := rfl
  obtain ⟨⟨-, not_added⟩, early⟩ := missed
  have le := early t rfl
  by_contra other
  apply not_added
  obtain ⟨s, hs, rfl⟩ := there
  unfold bucket at other
  rw [ten] at other
  refine ⟨began, ⟨?_, ?_⟩, s, hs, ?_⟩
  · unfold bucket
    rw [ten]
    omega
  · unfold bucket
    rw [ten]
    omega
  · unfold bucket
    rw [ten]
    omega

end Ledger

/-! ## The table -/

/-- No row has more of anything than a row it lies in. -/
def Agrees (rows : List TokenWindow) : Prop :=
  ∀ names ∈ [("1h", "24h"), ("24h", "7d"), ("7d", "all"), ("today", "7d")],
    ∀ a ∈ rows, ∀ b ∈ rows, a.name = names.1 → b.name = names.2 →
      ∀ c, a.counter c ≤ b.counter c

/-- Nothing is added to the ledger that it may have counted: what is added are rows, and each of
them ended before the ledger began. -/
def AddedOnce (db : RollupDb) (all : AllTime) : Prop :=
  ∀ c, before db all c = ((historyRows db all c).map fun row => row.2.sum).sum ∧
    ∀ row ∈ historyRows db all c, row.1 + 600 ≤ all.since

theorem counter_tokenWindow (db : RollupDb) (firstTs : ℤ → String → Option ℤ) (now : ℤ)
    (name : String) (secs : ℤ) (c : TokenCounter) :
    (tokenWindow db firstTs now name secs).counter c = windowSum db now secs c := by
  cases c <;> rfl

theorem counter_allRow (db : RollupDb) (firstTs : ℤ → String → Option ℤ) (now : ℤ)
    (all : AllTime) (w : TokenWindow) (c : TokenCounter) :
    (allRow db firstTs now all w).counter c = (all.counter c).total + before db all c := by
  cases c <;> rfl

/-- The table agrees with itself when each window lies in the next. -/
theorem agrees_iff (db : RollupDb) (firstTs : ℤ → String → Option ℤ) (now midnight : ℤ)
    (all : AllTime) : Agrees (tokenRows db firstTs now midnight all) ↔
      ∀ c, windowSum db now 3600 c ≤ windowSum db now 86400 c ∧
        windowSum db now 86400 c ≤ windowSum db now week c ∧
          windowSum db now week c ≤ (all.counter c).total + before db all c ∧
            windowSum db now (max (now - midnight) 0) c ≤ windowSum db now week c := by
  have named (name : String) (secs : ℤ) :
      (tokenWindow db firstTs now name secs).name = name := rfl
  have named_all (w : TokenWindow) : (allRow db firstTs now all w).name = "all" := rfl
  have rows : Agrees (tokenRows db firstTs now midnight all) ↔
      (∀ c, windowSum db now 3600 c ≤ windowSum db now 86400 c) ∧
        (∀ c, windowSum db now 86400 c ≤ windowSum db now week c) ∧
          (∀ c, windowSum db now week c ≤ (all.counter c).total + before db all c) ∧
            ∀ c, windowSum db now (max (now - midnight) 0) c ≤ windowSum db now week c := by
    simp [Agrees, tokenRows, named, named_all, counter_tokenWindow, counter_allRow, week]
  rw [rows]
  simp only [forall_and]

/-- Over every run of samples, the ledger starting at any of them, the table agrees with itself and
nothing is added twice exactly when all time has as much that the week has not as it misses of
the week. -/
theorem table_agrees_iff (earlier later : List Feed)
    (increasing : Increasing ((earlier ++ later).map Feed.sample)) (day : ℤ → String)
    (firstTs : ℤ → String → Option ℤ) (now midnight : ℤ)
    (recent : now - 25 * 3600 ≤ midnight ∧ midnight ≤ now) :
    let db := (({} : Pipeline).pushAll {} (earlier ++ later)).2
    let ledger := ledgerOf day (later.map Feed.sample)
    (Agrees (tokenRows db firstTs now midnight ledger) ∧ AddedOnce db ledger) ↔
      ∀ c, MadeUp now ((earlier ++ later).map Feed.sample)
        (firstReading (later.map Feed.sample)) ledger c := by
  intro db ledger
  have added : AddedOnce db ledger :=
    fun c => ⟨before_eq_rows db ledger c, fun row hrow => historyRows_ended hrow⟩
  have part : max (now - midnight) 0 ≤ week := by
    have seconds : week = 7 * 86400 := rfl
    omega
  rw [agrees_iff]
  constructor
  · rintro ⟨h, -⟩ c
    exact (week_le_all_iff increasing now _ ledger c).mp (h c).2.2.1
  · intro h
    refine ⟨fun c => ⟨?_, ?_, ?_, ?_⟩, added⟩
    · exact windowSum_mono increasing (by decide) c
    · exact windowSum_mono increasing (by decide) c
    · exact (week_le_all_iff increasing now _ ledger c).mpr (h c)
    · exact windowSum_mono increasing part c

/-! ## A ledger that is younger than the history -/

/-- Five tokens in the minutes before the ledger's first reading. -/
def unreadFeeds : List Feed := [generatedBy 1000 0, generatedBy 1060 5]

/-- The samples the ledger reads. -/
def readFeeds : List Feed := [generatedBy 1120 5, generatedBy 1260 9]

/-- A ledger that was read all along has what the week has. -/
theorem whole_ledger_agrees :
    let db := (({} : Pipeline).pushAll {} ([] ++ (unreadFeeds ++ readFeeds))).2
    let ledger := ledgerOf (fun _ => "1970-01-01") ((unreadFeeds ++ readFeeds).map Feed.sample)
    Agrees (tokenRows db (fun _ _ => none) 1300 0 ledger) ∧ AddedOnce db ledger := by
  have increasing : Increasing ((unreadFeeds ++ readFeeds).map Feed.sample) := by decide
  exact (table_agrees_iff [] (unreadFeeds ++ readFeeds) increasing (fun _ => "1970-01-01")
    (fun _ _ => none) 1300 0 (by decide)).mpr fun c =>
      madeUp_of_whole increasing (by cases c <;> decide) 1300

/-- A ledger that is first read within ten minutes has nothing of them, while the hour has. -/
theorem first_minutes_are_missed :
    let db := (({} : Pipeline).pushAll {} (unreadFeeds ++ readFeeds)).2
    let ledger := ledgerOf (fun _ => "1970-01-01") (readFeeds.map Feed.sample)
    ¬(Agrees (tokenRows db (fun _ _ => none) 1300 0 ledger) ∧ AddedOnce db ledger) := by
  have increasing : Increasing ((unreadFeeds ++ readFeeds).map Feed.sample) := by decide
  intro db ledger
  rintro ⟨agrees, -⟩
  have long := ((agrees_iff db _ 1300 0 ledger).mp agrees .generated).2.2.1
  have made_up := (week_le_all_iff increasing 1300 (firstReading (readFeeds.map Feed.sample)) ledger
    .generated).mp long
  exact absurd made_up (by decide +kernel)

end Lss.Analysis.TokenTable
