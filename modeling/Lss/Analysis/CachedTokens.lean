import Lss.Library.Refill
import Lss.Model.TokenRepair

/-!
# Cached tokens that are spread back

Seen through what the buckets of a tier hold, the repair empties the impossible buckets one after
the other and fills the earlier buckets that read prompts and hold nothing. Every filled bucket
holds at most its prompts, nothing impossible is left, and no other metric is touched. The total
stays only where each impossible bucket finds room enough behind the one before it: the first of
two fills every hole up to its own part, and for the second these are no holes any more.
-/

set_option autoImplicit false

namespace Lss.Analysis.CachedTokens

open Lss.Model Lss.Library

variable {rows : List StoredRollup}

/-! ## What a key holds after a write -/

theorem sumAt_put (rows : List StoredRollup) (r : StoredRollup) (res : ℤ) (metric : String)
    (ts : ℤ) : sumAt (Table.put StoredRollup.key rows r) res metric ts =
      if r.key = (res, metric, ts) then r.row.sum else sumAt rows res metric ts := by
  unfold sumAt rowAt
  rw [Table.find?_put]
  split <;> rfl

theorem sumAt_delete (rows : List StoredRollup) (key : ℤ × String × ℤ) (res : ℤ)
    (metric : String) (ts : ℤ) : sumAt (rows.filter fun r => r.key ≠ key) res metric ts =
      if key = (res, metric, ts) then 0 else sumAt rows res metric ts := by
  unfold sumAt rowAt
  rw [Table.find?_filter_ne]
  split <;> rfl

/-- In a keyed table a key holds what its row adds up to. -/
theorem sumAt_of_mem (keyed : Table.Keyed StoredRollup.key rows) {r : StoredRollup}
    (hr : r ∈ rows) : sumAt rows r.res r.metric r.ts = r.row.sum := by
  unfold sumAt rowAt
  rw [show (r.res, r.metric, r.ts) = r.key from rfl, keyed.find?_of_mem hr]
  rfl

/-- A key that holds something has a row. -/
theorem exists_row_of_sumAt {res ts : ℤ} {metric : String}
    (h : sumAt rows res metric ts ≠ 0) : ∃ r ∈ rows, r.key = (res, metric, ts) := by
  unfold sumAt rowAt at h
  cases found : rows.find? fun r => decide (r.key = (res, metric, ts)) with
  | none => simp [found] at h
  | some r =>
      exact ⟨r, List.mem_of_find?_eq_some found, by simpa using List.find?_some found⟩

theorem mem_scan {metric : String} {r : StoredRollup} :
    r ∈ scan rows metric ↔ r ∈ rows ∧ r.metric = metric := by
  simp [scan, List.mem_insertionSort]

/-! ## The holes of a bucket -/

/-- Every time some row is of. -/
def times (rows : List StoredRollup) : Finset ℤ := (rows.map StoredRollup.ts).toFinset

/-- What the buckets of a tier read, and what they had from the cache. -/
def prompts (rows : List StoredRollup) (res ts : ℤ) : ℚ := sumAt rows res "tok_prompt" ts

@[inherit_doc prompts] def cached (rows : List StoredRollup) (res ts : ℤ) : ℚ :=
  sumAt rows res "tok_cached" ts

theorem mem_times {r : StoredRollup} (hr : r ∈ rows) : r.ts ∈ times rows :=
  List.mem_toFinset.mpr (List.mem_map_of_mem hr)

theorem mem_tokenHoles (keyed : Table.Keyed StoredRollup.key rows) {res b : ℤ} {hole : ℤ × ℚ} :
    hole ∈ tokenHoles rows res b ↔
      hole.1 < b ∧ 0 < prompts rows res hole.1 ∧ cached rows res hole.1 = 0 ∧
        hole.2 = prompts rows res hole.1 := by
  unfold tokenHoles
  simp only [List.mem_map, List.mem_filter, mem_scan, decide_eq_true_eq]
  constructor
  · rintro ⟨p, ⟨⟨hp, prompt⟩, rfl, before, full, empty⟩, rfl⟩
    have holds := sumAt_of_mem keyed hp
    rw [prompt] at holds
    exact ⟨before, holds.symm ▸ full, empty, holds.symm⟩
  · rintro ⟨before, full, empty, value⟩
    obtain ⟨p, hp, key⟩ := exists_row_of_sumAt full.ne'
    simp only [StoredRollup.key, Prod.mk.injEq] at key
    obtain ⟨rfl, prompt, ts⟩ := key
    have holds := sumAt_of_mem keyed hp
    rw [prompt, ts] at holds
    refine ⟨p, ⟨⟨hp, prompt⟩, rfl, ts ▸ before, ?_, ts ▸ empty⟩, ?_⟩
    · rw [← holds]
      exact full
    · rw [← holds, ts]
      exact Prod.ext rfl value.symm

/-- The holes of a bucket, each once. -/
theorem nodup_tokenHoles (keyed : Table.Keyed StoredRollup.key rows) (res b : ℤ) :
    ((tokenHoles rows res b).map Prod.fst).Nodup := by
  unfold tokenHoles
  rw [List.map_map]
  apply List.Nodup.map_on
  · intro p hp q hq same
    simp only [List.mem_filter, mem_scan, decide_eq_true_eq] at hp hq
    obtain ⟨⟨hp, p_prompt⟩, p_res, -⟩ := hp
    obtain ⟨⟨hq, q_prompt⟩, q_res, -⟩ := hq
    apply keyed.eq_of_key hp hq
    simp only [StoredRollup.key, p_prompt, q_prompt, p_res, q_res]
    rw [show p.ts = q.ts from same]
  · apply List.Nodup.filter
    rw [scan, (List.perm_insertionSort _ _).nodup_iff]
    apply List.Nodup.filter
    exact keyed.imp fun h same => h (congrArg StoredRollup.key same)

theorem holes_toFinset (keyed : Table.Keyed StoredRollup.key rows) {places : Finset ℤ}
    {res : ℤ} (inside : ∀ ts, prompts rows res ts ≠ 0 → ts ∈ places) (b : ℤ) :
    ((tokenHoles rows res b).map Prod.fst).toFinset =
      Refill.holes places (prompts rows res) (cached rows res) b := by
  ext ts
  rw [Refill.mem_holes, List.mem_toFinset, List.mem_map]
  constructor
  · rintro ⟨hole, mem, rfl⟩
    obtain ⟨before, full, empty, -⟩ := (mem_tokenHoles keyed).mp mem
    exact ⟨inside _ full.ne', before, full, empty⟩
  · rintro ⟨-, before, full, empty⟩
    exact ⟨(ts, prompts rows res ts), (mem_tokenHoles keyed).mpr ⟨before, full, empty, rfl⟩, rfl⟩

/-- The room of the holes is the one of the places before the bucket. -/
theorem room_tokenHoles (keyed : Table.Keyed StoredRollup.key rows) {places : Finset ℤ}
    {res : ℤ} (inside : ∀ ts, prompts rows res ts ≠ 0 → ts ∈ places) (b : ℤ) :
    ((tokenHoles rows res b).map Prod.snd).sum =
      Refill.roomBefore places (prompts rows res) (cached rows res) b := by
  unfold Refill.roomBefore
  rw [← holes_toFinset keyed inside, List.sum_toFinset _ (nodup_tokenHoles keyed res b),
    List.map_map]
  congr 1
  apply List.map_congr_left
  intro hole mem
  exact ((mem_tokenHoles keyed).mp mem).2.2.2

/-! ## One bucket -/

theorem sumAt_fill (room : ℤ → ℚ) (res : ℤ) (factor : ℚ) (holes : List (ℤ × ℚ))
    (values : ∀ hole ∈ holes, hole.2 = room hole.1) (rows : List StoredRollup) (res' : ℤ)
    (metric : String) (ts : ℤ) : sumAt (holes.foldl (fillHole res factor) rows) res' metric ts =
      if res' = res ∧ metric = "tok_cached" ∧ ts ∈ holes.map Prod.fst then room ts * factor
      else sumAt rows res' metric ts := by
  induction holes using List.reverseRecOn with
  | nil => simp
  | append_singleton holes hole ih =>
      rw [List.foldl_concat, fillHole, sumAt_put, ih fun h mem => values h (by simp [mem])]
      have value := values hole (by simp)
      by_cases here : res' = res ∧ metric = "tok_cached" ∧ ts = hole.1
      · obtain ⟨rfl, rfl, rfl⟩ := here
        simp [StoredRollup.key, RollupRow.sum, value]
      · have other : ¬(res = res' ∧ "tok_cached" = metric ∧ hole.1 = ts) := by
          rintro ⟨rfl, rfl, rfl⟩
          exact here ⟨rfl, rfl, rfl⟩
        have member : (res' = res ∧ metric = "tok_cached" ∧
            ts ∈ (holes ++ [hole]).map Prod.fst) ↔
            res' = res ∧ metric = "tok_cached" ∧ ts ∈ holes.map Prod.fst := by
          simp only [List.map_append, List.map_singleton, List.mem_append, List.mem_singleton]
          constructor
          · rintro ⟨same, metric, mem | ts⟩
            · exact ⟨same, metric, mem⟩
            · exact absurd ⟨same, metric, ts⟩ here
          · rintro ⟨same, metric, mem⟩
            exact ⟨same, metric, Or.inl mem⟩
        simp only [StoredRollup.key, Prod.mk.injEq, other, if_false, member]

theorem fillFactor_eq (keyed : Table.Keyed StoredRollup.key rows) {places : Finset ℤ} {res : ℤ}
    (inside : ∀ ts, prompts rows res ts ≠ 0 → ts ∈ places) {b : ℤ} {sum : ℚ}
    (full : sum = cached rows res b) :
    fillFactor ((tokenHoles rows res b).map Prod.snd).sum sum =
      Refill.share places (prompts rows res) (cached rows res) b := by
  rw [room_tokenHoles keyed inside, full]
  rfl

/-- What is spread back of one bucket, seen from its tier. -/
theorem cached_spreadBack (keyed : Table.Keyed StoredRollup.key rows) {places : Finset ℤ}
    {res : ℤ} (inside : ∀ ts, prompts rows res ts ≠ 0 → ts ∈ places) {b : ℤ} {sum : ℚ}
    (full : sum = cached rows res b) :
    cached (spreadBack rows (res, b, sum)) res =
      Refill.spread places (prompts rows res) (cached rows res) b := by
  funext ts
  have values : ∀ hole ∈ tokenHoles rows res b, hole.2 = prompts rows res hole.1 :=
    fun hole mem => ((mem_tokenHoles keyed).mp mem).2.2.2
  have member : ts ∈ (tokenHoles rows res b).map Prod.fst ↔
      ts ∈ Refill.holes places (prompts rows res) (cached rows res) b := by
    rw [← holes_toFinset keyed inside, List.mem_toFinset]
  unfold Refill.spread cached spreadBack
  rw [sumAt_delete, fillFactor_eq keyed inside full, sumAt_fill _ _ _ _ values]
  simp only [Prod.mk.injEq, true_and, member, eq_comm (a := b)]
  rfl

/-- Other tiers and other metrics are not touched. -/
theorem sumAt_spreadBack (keyed : Table.Keyed StoredRollup.key rows) (bad : ℤ × ℤ × ℚ) {res : ℤ}
    {metric : String} (other : res ≠ bad.1 ∨ metric ≠ "tok_cached") (ts : ℤ) :
    sumAt (spreadBack rows bad) res metric ts = sumAt rows res metric ts := by
  have values : ∀ hole ∈ tokenHoles rows bad.1 bad.2.1, hole.2 = prompts rows bad.1 hole.1 :=
    fun hole mem => ((mem_tokenHoles keyed).mp mem).2.2.2
  have not_here : ¬(res = bad.1 ∧ metric = "tok_cached") := by
    rintro ⟨same, cached⟩
    rcases other with other | other
    · exact other same
    · exact other cached
  have key : ¬((bad.1, "tok_cached", bad.2.1) = (res, metric, ts)) := by
    intro same
    simp only [Prod.mk.injEq] at same
    exact not_here ⟨same.1.symm, same.2.1.symm⟩
  unfold spreadBack
  rw [sumAt_delete, if_neg key, sumAt_fill _ _ _ _ values, if_neg]
  rintro ⟨same, cached, -⟩
  exact not_here ⟨same, cached⟩

theorem keyed_spreadBack (keyed : Table.Keyed StoredRollup.key rows) (bad : ℤ × ℤ × ℚ) :
    Table.Keyed StoredRollup.key (spreadBack rows bad) := by
  unfold spreadBack
  apply List.Pairwise.filter
  generalize fillFactor _ _ = factor
  generalize tokenHoles _ _ _ = holes
  induction holes generalizing rows with
  | nil => exact keyed
  | cons hole holes ih => exact ih (keyed.put _)

/-! ## Which rows there are -/

theorem fillFactor_le_one (room sum : ℚ) : fillFactor room sum ≤ 1 := by
  unfold fillFactor
  split
  · exact min_le_right _ _
  · exact zero_le_one

/-- A row behind the repair of one bucket was there before and is not the bucket's own, or it
fills a hole and holds no more than its prompts. -/
theorem mem_spreadBack (keyed : Table.Keyed StoredRollup.key rows) {bad : ℤ × ℤ × ℚ}
    {r : StoredRollup} (hr : r ∈ spreadBack rows bad) :
    (r ∈ rows ∧ r.key ≠ (bad.1, "tok_cached", bad.2.1)) ∨
      (r.metric = "tok_cached" ∧ 0 < prompts rows r.res r.ts ∧
        r.row.sum ≤ prompts rows r.res r.ts) := by
  unfold spreadBack at hr
  obtain ⟨hr, key⟩ := List.mem_filter.mp hr
  rw [decide_eq_true_eq] at key
  have values : ∀ hole ∈ tokenHoles rows bad.1 bad.2.1,
      0 < hole.2 ∧ hole.2 = prompts rows bad.1 hole.1 := by
    intro hole mem
    obtain ⟨-, full, -, value⟩ := (mem_tokenHoles keyed).mp mem
    exact ⟨value ▸ full, value⟩
  have fits : fillFactor ((tokenHoles rows bad.1 bad.2.1).map Prod.snd).sum bad.2.2 ≤ 1 :=
    fillFactor_le_one _ _
  have filled : r ∈ rows ∨ (r.metric = "tok_cached" ∧ 0 < prompts rows r.res r.ts ∧
      r.row.sum ≤ prompts rows r.res r.ts) := by
    revert values fits hr
    generalize fillFactor _ _ = factor
    generalize tokenHoles _ _ _ = holes
    intro hr values fits
    induction holes using List.reverseRecOn with
    | nil => exact Or.inl hr
    | append_singleton holes hole ih =>
        rw [List.foldl_concat, fillHole, Table.mem_put] at hr
        rcases hr with rfl | ⟨hr, -⟩
        · obtain ⟨full, value⟩ := values hole (by simp)
          right
          refine ⟨rfl, value ▸ full, ?_⟩
          simp only [RollupRow.sum, mul_one]
          rw [← value]
          exact mul_le_of_le_one_right full.le fits
        · exact ih hr fun h mem => values h (List.mem_append_left _ mem)
  exact filled.imp_left fun old => ⟨old, key⟩

/-- Rows of other metrics stay. -/
theorem mem_spreadBack_other {bad : ℤ × ℤ × ℚ} {r : StoredRollup}
    (other : r.metric ≠ "tok_cached") : r ∈ spreadBack rows bad ↔ r ∈ rows := by
  unfold spreadBack
  have key : r.key ≠ (bad.1, "tok_cached", bad.2.1) := by
    intro same
    simp only [StoredRollup.key, Prod.mk.injEq] at same
    exact other same.2.1
  simp only [List.mem_filter, key, ne_eq, not_false_eq_true, decide_true, and_true]
  generalize fillFactor _ _ = factor
  generalize tokenHoles _ _ _ = holes
  induction holes using List.reverseRecOn with
  | nil => rfl
  | append_singleton holes hole ih =>
      rw [List.foldl_concat, fillHole, Table.mem_put]
      constructor
      · rintro (rfl | ⟨hr, -⟩)
        · exact absurd rfl other
        · exact ih.mp hr
      · intro hr
        refine Or.inr ⟨ih.mpr hr, ?_⟩
        intro same
        simp only [StoredRollup.key, Prod.mk.injEq] at same
        exact other same.2.1

/-! ## One bucket after the other -/

/-- The rows once some buckets are spread back. -/
def spreadBacks (rows : List StoredRollup) (bads : List (ℤ × ℤ × ℚ)) : List StoredRollup :=
  bads.foldl spreadBack rows

theorem spreadBacks_concat (rows : List StoredRollup) (bads : List (ℤ × ℤ × ℚ))
    (bad : ℤ × ℤ × ℚ) :
    spreadBacks rows (bads ++ [bad]) = spreadBack (spreadBacks rows bads) bad := by
  simp [spreadBacks]

/-- The times of the buckets of a tier among some. -/
def timesOf (bads : List (ℤ × ℤ × ℚ)) (res : ℤ) : List ℤ :=
  (bads.filter fun bad => bad.1 = res).map fun bad => bad.2.1

theorem mem_timesOf {bads : List (ℤ × ℤ × ℚ)} {res ts : ℤ} :
    ts ∈ timesOf bads res ↔ ∃ sum, (res, ts, sum) ∈ bads := by
  unfold timesOf
  simp only [List.mem_map, List.mem_filter, decide_eq_true_eq]
  constructor
  · rintro ⟨⟨_, _, sum⟩, ⟨mem, rfl⟩, rfl⟩
    exact ⟨sum, mem⟩
  · rintro ⟨sum, mem⟩
    exact ⟨_, ⟨mem, rfl⟩, rfl⟩

/-- What the repair relies on of the buckets it found: each with what it holds, and those of a
tier in order of time. -/
structure Found (rows : List StoredRollup) (bads : List (ℤ × ℤ × ℚ)) : Prop where
  holds : ∀ bad ∈ bads, bad.2.2 = cached rows bad.1 bad.2.1
  ascending : ∀ res, (timesOf bads res).Pairwise (· < ·)

theorem Found.of_concat {bads : List (ℤ × ℤ × ℚ)} {bad : ℤ × ℤ × ℚ}
    (found : Found rows (bads ++ [bad])) :
    Found rows bads ∧ ∀ ts ∈ timesOf bads bad.1, ts < bad.2.1 := by
  refine ⟨⟨fun b hb => found.holds b (List.mem_append_left _ hb), fun res => ?_⟩, ?_⟩
  · have ascending := found.ascending res
    simp only [timesOf, List.filter_append, List.map_append, List.pairwise_append] at ascending
    exact ascending.1
  · intro ts hts
    have ascending := found.ascending bad.1
    simp only [timesOf, List.filter_append, List.map_append, List.pairwise_append] at ascending
    exact ascending.2.2 ts hts bad.2.1 (by simp)

/-- What a run of the repair leaves: other metrics as they were, and in each tier what its
impossible buckets spread back one after the other. -/
structure Spread (rows : List StoredRollup) (bads : List (ℤ × ℤ × ℚ))
    (after : List StoredRollup) : Prop where
  keyed : Table.Keyed StoredRollup.key after
  other : ∀ r : StoredRollup, r.metric ≠ "tok_cached" → (r ∈ after ↔ r ∈ rows)
  prompts_eq : ∀ res, prompts after res = prompts rows res
  cached_eq : ∀ res, cached after res =
    Refill.spreadAll (times rows) (prompts rows res) (cached rows res) (timesOf bads res)
  filled : ∀ r ∈ after,
    (r ∈ rows ∧ ∀ bad ∈ bads, r.key ≠ (bad.1, "tok_cached", bad.2.1)) ∨
      (r.metric = "tok_cached" ∧ 0 < prompts rows r.res r.ts ∧
        r.row.sum ≤ prompts rows r.res r.ts)

theorem mem_times_of_prompts {res ts : ℤ} (h : prompts rows res ts ≠ 0) : ts ∈ times rows := by
  obtain ⟨r, hr, key⟩ := exists_row_of_sumAt h
  simp only [StoredRollup.key, Prod.mk.injEq] at key
  exact key.2.2 ▸ mem_times hr

/-- The step: one more bucket is spread back. -/
theorem Spread.step {bads : List (ℤ × ℤ × ℚ)} {bad : ℤ × ℤ × ℚ} {after : List StoredRollup}
    (h : Spread rows bads after) (found : Found rows (bads ++ [bad])) :
    Spread rows (bads ++ [bad]) (spreadBack after bad) := by
  obtain ⟨res, b, sum⟩ := bad
  have before := found.of_concat.2
  have own : sum = cached after res b := by
    rw [h.cached_eq, Refill.spreadAll_behind before]
    exact found.holds (res, b, sum) (by simp)
  refine ⟨keyed_spreadBack h.keyed _, ?_, ?_, ?_, ?_⟩
  · intro r other
    rw [mem_spreadBack_other other, h.other r other]
  · intro res'
    rw [← h.prompts_eq res']
    funext ts
    exact sumAt_spreadBack h.keyed _ (Or.inr (by simp)) ts
  · intro res'
    by_cases same : res' = res
    · subst same
      have inside : ∀ ts, prompts after res' ts ≠ 0 → ts ∈ times rows := by
        intro ts
        rw [h.prompts_eq]
        exact mem_times_of_prompts
      have one_more : timesOf (bads ++ [(res', b, sum)]) res' = timesOf bads res' ++ [b] := by
        simp [timesOf]
      rw [cached_spreadBack h.keyed inside own, one_more, Refill.spreadAll_concat,
        h.prompts_eq, h.cached_eq]
    · have none_more : timesOf (bads ++ [(res, b, sum)]) res' = timesOf bads res' := by
        simp [timesOf, Ne.symm same]
      rw [none_more, ← h.cached_eq]
      funext ts
      exact sumAt_spreadBack h.keyed _ (Or.inl same) ts
  · intro r hr
    rcases mem_spreadBack h.keyed hr with ⟨old, key⟩ | fits
    · apply (h.filled r old).imp_left
      rintro ⟨first, keys⟩
      refine ⟨first, ?_⟩
      intro bad hbad
      rcases List.mem_append.mp hbad with hbad | hbad
      · exact keys bad hbad
      · rw [List.mem_singleton.mp hbad]
        exact key
    · right
      rw [h.prompts_eq] at fits
      exact fits

/-- The run: by induction over the buckets that were found. -/
theorem spread_spreadBacks (keyed : Table.Keyed StoredRollup.key rows)
    {bads : List (ℤ × ℤ × ℚ)} (found : Found rows bads) :
    Spread rows bads (spreadBacks rows bads) := by
  induction bads using List.reverseRecOn with
  | nil =>
      refine ⟨keyed, fun _ _ => Iff.rfl, fun _ => rfl, fun _ => rfl, ?_⟩
      intro r hr
      exact Or.inl ⟨hr, by simp⟩
  | append_singleton bads bad ih =>
      rw [spreadBacks_concat]
      exact (ih found.of_concat.1).step found

/-! ## The buckets that are found -/

theorem mem_impossibleBuckets {bad : ℤ × ℤ × ℚ} :
    bad ∈ impossibleBuckets rows ↔ ∃ r ∈ rows, r.metric = "tok_cached" ∧
      tooMany r.res r.row.sum (prompts rows r.res r.ts) ∧ (r.res, r.ts, r.row.sum) = bad := by
  unfold impossibleBuckets
  simp only [List.mem_map, List.mem_filter, mem_scan, decide_eq_true_eq, and_assoc]
  rfl

theorem found_impossibleBuckets (keyed : Table.Keyed StoredRollup.key rows) :
    Found rows (impossibleBuckets rows) := by
  constructor
  · intro bad hbad
    obtain ⟨r, hr, metric, -, rfl⟩ := mem_impossibleBuckets.mp hbad
    have holds := sumAt_of_mem keyed hr
    rw [metric] at holds
    exact holds.symm
  · intro res
    -- the order of the primary key, and no key twice
    have sorted : (scan rows "tok_cached").Pairwise
        fun r s => r.res < s.res ∨ (r.res = s.res ∧ r.ts ≤ s.ts) := by
      have total : Std.Total fun r s : StoredRollup =>
          r.res < s.res ∨ (r.res = s.res ∧ r.ts ≤ s.ts) := ⟨fun r s => by omega⟩
      have transitive : IsTrans StoredRollup fun r s =>
          r.res < s.res ∨ (r.res = s.res ∧ r.ts ≤ s.ts) := ⟨fun r s t h h' => by omega⟩
      exact List.pairwise_insertionSort _ _
    have apart : (scan rows "tok_cached").Pairwise fun r s => r.key ≠ s.key := by
      have symm : ∀ r s : StoredRollup, r.key ≠ s.key → s.key ≠ r.key := fun _ _ => Ne.symm
      exact ((List.perm_insertionSort _ _).pairwise_iff (symm _ _)).mpr (keyed.filter _)
    unfold timesOf impossibleBuckets
    rw [List.filter_map, List.map_map, List.pairwise_map]
    apply List.Pairwise.imp_of_mem _ (((sorted.and apart).filter _).filter _)
    intro r s hr hs ⟨before, key⟩
    simp only [List.mem_filter, mem_scan, Function.comp_apply, decide_eq_true_eq] at hr hs
    have same_res : r.res = s.res := hr.2.trans hs.2.symm
    have other_ts : r.ts ≠ s.ts := by
      intro same
      apply key
      simp only [StoredRollup.key, same_res, hr.1.1.2, hs.1.1.2, same]
    simp only [Function.comp_apply]
    omega

theorem fst_foldl_report (bads : List (ℤ × ℤ × ℚ)) (rows : List StoredRollup)
    (reports : List (ℤ × ℤ × ℚ × ℚ)) :
    (bads.foldl (fun out bad => (spreadBack out.1 bad, out.2 ++ [spreadReport out.1 bad]))
      (rows, reports)).1 = spreadBacks rows bads := by
  induction bads generalizing rows reports with
  | nil => rfl
  | cons bad bads ih => exact ih _ _

theorem fst_repairRows (metricNames : List String) (rows : List StoredRollup) :
    (repairRows metricNames rows).1 =
      if "tok_cached" ∈ metricNames ∧ "tok_prompt" ∈ metricNames then
        spreadBacks rows (impossibleBuckets rows)
      else rows := by
  unfold repairRows
  split
  · exact fst_foldl_report _ _ _
  · rfl

/-- What the repair leaves of a store's rows. -/
theorem spread_repairRows (store : RollupStore)
    (known : "tok_cached" ∈ store.metricNames ∧ "tok_prompt" ∈ store.metricNames) :
    Spread store.rows (impossibleBuckets store.rows)
      (repairRows store.metricNames store.rows).1 := by
  rw [fst_repairRows, if_pos known]
  exact spread_spreadBacks store.keyed (found_impossibleBuckets store.keyed)

/-- The repair, from store to store. -/
def repaired (store : RollupStore) : RollupStore where
  metricNames := store.metricNames
  rows := (repairRows store.metricNames store.rows).1
  keyed := by
    by_cases known : "tok_cached" ∈ store.metricNames ∧ "tok_prompt" ∈ store.metricNames
    · exact (spread_repairRows store known).keyed
    · rw [fst_repairRows, if_neg known]
      exact store.keyed
  named := by
    intro r hr
    by_cases known : "tok_cached" ∈ store.metricNames ∧ "tok_prompt" ∈ store.metricNames
    · rcases (spread_repairRows store known).filled r hr with ⟨old, -⟩ | ⟨metric, -⟩
      · exact store.named r old
      · rw [metric]
        exact known.1
    · rw [fst_repairRows, if_neg known] at hr
      exact store.named r hr
  tiers := by
    intro r hr
    by_cases known : "tok_cached" ∈ store.metricNames ∧ "tok_prompt" ∈ store.metricNames
    · rcases (spread_repairRows store known).filled r hr with ⟨old, -⟩ | ⟨-, full, -⟩
      · exact store.tiers r old
      · obtain ⟨p, hp, key⟩ := exists_row_of_sumAt full.ne'
        simp only [StoredRollup.key, Prod.mk.injEq] at key
        exact key.1 ▸ store.tiers p hp
    · rw [fst_repairRows, if_neg known] at hr
      exact store.tiers r hr

/-! ## The total of a tier -/

/-- The cached tokens of a tier. -/
def cachedTotal (rows : List StoredRollup) (res : ℤ) : ℚ :=
  ((rows.filter fun r => r.res = res ∧ r.metric = "tok_cached").map fun r => r.row.sum).sum

theorem cachedTotal_eq (keyed : Table.Keyed StoredRollup.key rows) {places : Finset ℤ} {res : ℤ}
    (inside : ∀ r ∈ rows, r.res = res → r.metric = "tok_cached" → r.ts ∈ places) :
    cachedTotal rows res = ∑ ts ∈ places, cached rows res ts := by
  have held : ∀ r ∈ rows.filter (fun r => r.res = res ∧ r.metric = "tok_cached"),
      r.row.sum = cached rows res r.ts := by
    intro r hr
    simp only [List.mem_filter, decide_eq_true_eq] at hr
    obtain ⟨hr, rfl, metric⟩ := hr
    have holds := sumAt_of_mem keyed hr
    rw [metric] at holds
    exact holds.symm
  have once : ((rows.filter fun r => r.res = res ∧ r.metric = "tok_cached").map
      StoredRollup.ts).Nodup := by
    apply List.Nodup.map_on
    · intro r hr s hs same
      simp only [List.mem_filter, decide_eq_true_eq] at hr hs
      apply keyed.eq_of_key hr.1 hs.1
      simp only [StoredRollup.key, hr.2, hs.2, same]
    · exact (keyed.imp fun h same => h (congrArg StoredRollup.key same)).filter _
  have subset : ((rows.filter fun r => r.res = res ∧ r.metric = "tok_cached").map
      StoredRollup.ts).toFinset ⊆ places := by
    intro ts hts
    simp only [List.mem_toFinset, List.mem_map, List.mem_filter, decide_eq_true_eq] at hts
    obtain ⟨r, ⟨hr, same, metric⟩, rfl⟩ := hts
    exact inside r hr same metric
  have none_outside : ∀ ts ∈ places, ts ∉ ((rows.filter fun r =>
      r.res = res ∧ r.metric = "tok_cached").map StoredRollup.ts).toFinset →
        cached rows res ts = 0 := by
    intro ts _ outside
    by_contra some_held
    obtain ⟨r, hr, key⟩ := exists_row_of_sumAt some_held
    simp only [StoredRollup.key, Prod.mk.injEq] at key
    apply outside
    simp only [List.mem_toFinset, List.mem_map, List.mem_filter, decide_eq_true_eq]
    exact ⟨r, ⟨hr, key.1, key.2.1⟩, key.2.2⟩
  unfold cachedTotal
  rw [List.map_congr_left held, ← Finset.sum_subset subset none_outside,
    List.sum_toFinset _ once, List.map_map]
  rfl

/-! ## What the repair keeps -/

/-- Whether the earlier buckets with prompts and no cached tokens have room together, for each
impossible bucket of a tier and those before it. -/
def EnoughRoom (rows : List StoredRollup) (res : ℤ) : Prop :=
  ∀ bad ∈ impossibleBuckets rows, bad.1 = res →
    (((impossibleBuckets rows).filter fun c => c.1 = res ∧ c.2.1 ≤ bad.2.1).map
      fun c => c.2.2).sum ≤ ((tokenHoles rows res bad.2.1).map Prod.snd).sum

instance (rows : List StoredRollup) (res : ℤ) : Decidable (EnoughRoom rows res) :=
  inferInstanceAs (Decidable (∀ bad ∈ impossibleBuckets rows, _))

/-- Whether each impossible bucket of a tier finds room behind the one before it: in buckets that
read prompts and hold nothing, or that were impossible themselves. -/
def RoomForEach (rows : List StoredRollup) (res : ℤ) : Prop :=
  ∀ bad ∈ impossibleBuckets rows, bad.1 = res →
    bad.2.2 ≤ Refill.roomSince (times rows) (prompts rows res) (cached rows res)
      (timesOf (impossibleBuckets rows) res) bad.2.1

/-- A repair that conserves the tokens of a store: what it fills fits the prompts, nothing
impossible is left, the total of a tier with room enough stays, as do other metrics, and running
it again changes nothing. -/
structure Conserved (store : RollupStore) : Prop where
  fits : ∀ r ∈ (repaired store).rows, r.metric = "tok_cached" → r ∉ store.rows →
    r.row.sum ≤ sumAt (repaired store).rows r.res "tok_prompt" r.ts
  none_left : impossibleBuckets (repaired store).rows = []
  total : ∀ res, EnoughRoom store.rows res →
    cachedTotal (repaired store).rows res = cachedTotal store.rows res
  other : ∀ r : StoredRollup, r.metric ≠ "tok_cached" →
    (r ∈ (repaired store).rows ↔ r ∈ store.rows)
  again : repaired (repaired store) = repaired store

variable {store : RollupStore}

/-- Where nothing is impossible nothing is changed. -/
theorem repaired_of_none (h : impossibleBuckets store.rows = []) : repaired store = store := by
  apply RollupStore.ext
  · rfl
  change (repairRows store.metricNames store.rows).1 = store.rows
  rw [fst_repairRows, h]
  simp [spreadBacks]

theorem none_left_of_known
    (known : "tok_cached" ∈ store.metricNames ∧ "tok_prompt" ∈ store.metricNames) :
    impossibleBuckets (repaired store).rows = [] := by
  have spread := spread_repairRows store known
  rw [List.eq_nil_iff_forall_not_mem]
  intro bad hbad
  obtain ⟨r, hr, metric, ⟨many, twice⟩, rfl⟩ := mem_impossibleBuckets.mp hbad
  have same_prompts := congrFun (spread.prompts_eq r.res) r.ts
  change prompts (repaired store).rows r.res r.ts = prompts store.rows r.res r.ts at same_prompts
  rw [same_prompts] at twice
  rcases spread.filled r hr with ⟨old, keys⟩ | ⟨-, full, fits⟩
  · -- it was impossible before, and was taken out
    apply keys (r.res, r.ts, r.row.sum)
    · exact mem_impossibleBuckets.mpr ⟨r, old, metric, ⟨many, twice⟩, rfl⟩
    · simp only [StoredRollup.key, metric]
  · linarith

/-- The total of a tier stays exactly when each impossible bucket finds room. -/
theorem cachedTotal_repaired_iff
    (known : "tok_cached" ∈ store.metricNames ∧ "tok_prompt" ∈ store.metricNames) (res : ℤ) :
    cachedTotal (repaired store).rows res = cachedTotal store.rows res ↔
      RoomForEach store.rows res := by
  have spread := spread_repairRows store known
  have found := found_impossibleBuckets store.keyed
  have inside : ∀ r ∈ (repaired store).rows, r.res = res → r.metric = "tok_cached" →
      r.ts ∈ times store.rows := by
    intro r hr _ _
    rcases spread.filled r hr with ⟨old, -⟩ | ⟨-, full, -⟩
    · exact mem_times old
    · exact mem_times_of_prompts full.ne'
  have some_tokens : ∀ ts ∈ timesOf (impossibleBuckets store.rows) res,
      0 < cached store.rows res ts := by
    intro ts hts
    obtain ⟨sum, mem⟩ := mem_timesOf.mp hts
    obtain ⟨r, hr, -, ⟨many, -⟩, same⟩ := mem_impossibleBuckets.mp mem
    simp only [Prod.mk.injEq] at same
    obtain ⟨rfl, rfl, rfl⟩ := same
    have holds := found.holds _ mem
    simp only at holds
    rw [← holds]
    have tier : (0 : ℤ) ≤ r.res := by
      rcases store.tiers r hr with h | h <;> simp [h, res1m, res10m]
    have tokens : (0 : ℚ) ≤ maxCachedTokS * r.res :=
      mul_nonneg (by norm_num [maxCachedTokS]) (by exact_mod_cast tier)
    linarith
  have places : ∀ ts ∈ timesOf (impossibleBuckets store.rows) res, ts ∈ times store.rows := by
    intro ts hts
    obtain ⟨sum, mem⟩ := mem_timesOf.mp hts
    obtain ⟨r, hr, -, -, same⟩ := mem_impossibleBuckets.mp mem
    simp only [Prod.mk.injEq] at same
    exact same.2.1 ▸ mem_times hr
  rw [cachedTotal_eq (repaired store).keyed inside,
    cachedTotal_eq store.keyed fun r hr _ _ => mem_times hr]
  have cached_after : cached (repaired store).rows res = _ := spread.cached_eq res
  rw [cached_after, Refill.sum_spreadAll_iff (found.ascending res) some_tokens places]
  constructor
  · intro h bad hbad same
    subst same
    have holds := found.holds bad hbad
    rw [holds]
    exact h bad.2.1 (mem_timesOf.mpr ⟨bad.2.2, hbad⟩)
  · intro h ts hts
    obtain ⟨sum, mem⟩ := mem_timesOf.mp hts
    have fits := h _ mem rfl
    have holds := found.holds _ mem
    simp only at holds fits
    rwa [holds] at fits

/-- The repair conserves the tokens of a store exactly when both metrics are there, or nothing
impossible is, and in each tier with room enough each impossible bucket finds its own behind the
one before it. -/
theorem cached_conserved_iff (store : RollupStore) :
    Conserved store ↔
      (impossibleBuckets store.rows = [] ∨
        ("tok_cached" ∈ store.metricNames ∧ "tok_prompt" ∈ store.metricNames)) ∧
      ∀ res, EnoughRoom store.rows res → RoomForEach store.rows res := by
  by_cases known : "tok_cached" ∈ store.metricNames ∧ "tok_prompt" ∈ store.metricNames
  · have spread := spread_repairRows store known
    have none_left := none_left_of_known known
    constructor
    · intro h
      refine ⟨Or.inr known, ?_⟩
      intro res enough
      exact (cachedTotal_repaired_iff known res).mp (h.total res enough)
    · rintro ⟨-, each⟩
      refine ⟨?_, none_left, ?_, spread.other, repaired_of_none none_left⟩
      · intro r hr metric filled
        have same_prompts := congrFun (spread.prompts_eq r.res) r.ts
        change prompts (repaired store).rows r.res r.ts = _ at same_prompts
        rcases spread.filled r hr with ⟨old, -⟩ | ⟨-, -, fits⟩
        · exact absurd old filled
        · rw [← same_prompts] at fits
          exact fits
      · intro res enough
        exact (cachedTotal_repaired_iff known res).mpr (each res enough)
  · have same_rows : (repaired store).rows = store.rows := by
      change (repairRows store.metricNames store.rows).1 = store.rows
      rw [fst_repairRows, if_neg known]
    constructor
    · intro h
      have nothing : impossibleBuckets store.rows = [] := same_rows ▸ h.none_left
      refine ⟨Or.inl nothing, ?_⟩
      intro res _ bad hbad
      rw [nothing] at hbad
      cases hbad
    · rintro ⟨nothing | both, -⟩
      · have same := repaired_of_none nothing
        refine ⟨?_, by rw [same, nothing], by simp [same], by simp [same], by rw [same, same]⟩
        intro r hr _ filled
        rw [same] at hr
        exact absurd hr filled
      · exact absurd both known

/-- A minute of prompts with no cached tokens, and two impossible minutes behind it. -/
def twoSpikes : RollupStore where
  metricNames := ["tok_prompt", "tok_cached"]
  rows := [⟨60, "tok_prompt", 0, ⟨200000000, 200000000, 200000000, 1⟩⟩,
    ⟨60, "tok_cached", 60, ⟨50000000, 50000000, 50000000, 1⟩⟩,
    ⟨60, "tok_cached", 120, ⟨50000000, 50000000, 50000000, 1⟩⟩]
  keyed := by simp [Table.Keyed, StoredRollup.key]
  named := by simp
  tiers := by simp [res1m]

/-- The first of the two leaves the only hole a quarter full, so the second finds none: fifty
million tokens are lost. -/
theorem the_second_spike_is_lost : ¬Conserved twoSpikes := by
  intro h
  have enough : EnoughRoom twoSpikes.rows 60 := by decide +kernel
  have lost : cachedTotal (repairRows twoSpikes.metricNames twoSpikes.rows).1 60 ≠
      cachedTotal twoSpikes.rows 60 := by decide +kernel
  exact lost (h.total 60 enough)

end Lss.Analysis.CachedTokens
