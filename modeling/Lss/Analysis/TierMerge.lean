import Lss.Analysis.RollupRows
import Lss.Analysis.SampleRows
import Lss.Library.Fold
import Lss.Library.Machine

/-!
# The two tiers of the rollup

Each tier hands a bucket out when the first sample of a later one arrives: every bucket with
points once, in order of time, with the points of its interval. The buckets of the two tiers
close at different samples, but both fold the same points, and merging aggregates is
associative: what the ten-minute tier hands out is the merge of what the one-minute tier handed
out in its interval.
-/

set_option autoImplicit false

namespace Lss.Analysis.TierMerge

open Lss.Library Lss.Library.Buckets Lss.Library.Fold Lss.Model Lss.Analysis.RollupRows
  Lss.Analysis.SampleRows

/-! ## Merging aggregates -/

theorem merge_assoc (a b c : Agg) : (a.merge b).merge c = a.merge (b.merge c) := by
  unfold Agg.merge
  ext
  · exact add_assoc _ _ _
  · exact min_assoc _ _ _
  · exact max_assoc _ _ _
  · exact add_assoc _ _ _

theorem merge_comm (a b : Agg) : a.merge b = b.merge a := by
  unfold Agg.merge
  ext
  · exact add_comm _ _
  · exact min_comm _ _
  · exact max_comm _ _
  · exact add_comm _ _

instance : Std.Associative Agg.merge := ⟨merge_assoc⟩

instance : Std.Commutative Agg.merge := ⟨merge_comm⟩

/-- The aggregate of some values is the merge of the aggregates of each. -/
theorem aggOf_eq_fold1 (vs : List ℚ) : aggOf vs = fold1 Agg.merge (vs.map Agg.one) := by
  cases vs with
  | nil => rfl
  | cons v vs =>
      unfold aggOf
      rw [List.map_cons]
      show _ = some ((vs.map Agg.one).foldl Agg.merge (Agg.one v))
      rw [List.foldl_map]

/-- The aggregate of the values of some pieces is the merge of the aggregates of the pieces. -/
theorem aggOf_flatMap {β : Type} (f : β → List ℚ) (xs : List β) :
    aggOf (xs.flatMap f) = fold1 Agg.merge (xs.filterMap fun x => aggOf (f x)) := by
  rw [aggOf_eq_fold1, List.map_flatMap, fold1_flatMap]
  congr 1
  apply List.filterMap_congr
  intro x _
  exact (aggOf_eq_fold1 (f x)).symm

/-! ## What a tier hands out -/

/-- What a tier of a pipeline hands out while samples are pushed. -/
def batchesOf (tier : Pipeline → Roller) : Pipeline → List Feed → List RollupBatch
  | _, [] => []
  | p, f :: fs =>
    ((tier p).add f.sample.ts (samplePoints p.prev f.sample)).2.toList ++
      batchesOf tier (p.push {} f.sample f.hists f.replace).1 fs

/-- A roller as a machine that hands buckets out. -/
def rollerStep (r : Roller) (x : Fed) : Roller × List RollupBatch :=
  ((r.add (time x) x.2).1, (r.add (time x) x.2).2.toList)

theorem batchesOf_m1 (p : Pipeline) (fs : List Feed) :
    batchesOf Pipeline.m1 p fs = (Machine.run rollerStep p.m1 (withPoints p.prev fs)).2 := by
  induction fs generalizing p with
  | nil => rfl
  | cons f fs ih =>
      rw [batchesOf, ih, withPoints, Machine.run_cons]
      rfl

theorem batchesOf_m10 (p : Pipeline) (fs : List Feed) :
    batchesOf Pipeline.m10 p fs = (Machine.run rollerStep p.m10 (withPoints p.prev fs)).2 := by
  induction fs generalizing p with
  | nil => rfl
  | cons f fs ih =>
      rw [batchesOf, ih, withPoints, Machine.run_cons]
      rfl

theorem lookup_eq_some_iff {rows : List (String × Agg)} (nodup : (rows.map Prod.fst).Nodup)
    (name : String) (a : Agg) : rows.lookup name = some a ↔ (name, a) ∈ rows := by
  induction rows with
  | nil => simp
  | cons r rows ih =>
      obtain ⟨key, b⟩ := r
      rw [List.map_cons, List.nodup_cons] at nodup
      rw [List.lookup_cons, List.mem_cons, Prod.mk.injEq]
      by_cases hkey : name = key
      · subst hkey
        simp only [beq_self_eq_true, Option.some.injEq, true_and]
        constructor
        · intro h
          exact Or.inl h.symm
        · rintro (h | h)
          · exact h.symm
          · exact absurd (List.mem_map_of_mem h) nodup.1
      · simp only [beq_eq_false_iff_ne.2 hkey, hkey, false_and, false_or]
        exact ih nodup.2

theorem nodup_toList (acc : Std.ExtTreeMap String Agg) : (acc.toList.map Prod.fst).Nodup := by
  rw [List.Nodup, List.pairwise_map]
  apply Std.ExtTreeMap.distinct_keys_toList.imp
  intro r s hne heq
  exact hne (by rw [heq]; exact Std.ReflCmp.compare_self)

/-- The batches of a roller that was fed some samples in order of time. -/
structure Handed (res : ℤ) (xs : List Fed) (log : List RollupBatch) : Prop where
  increasing : log.Pairwise fun b c => b.ts < c.ts
  exact : ∀ b, (∃ batch ∈ log, batch.ts = b) ↔
    Closed time res b xs ∧ ∃ name, held res b name xs ≠ []
  res_eq : ∀ batch ∈ log, batch.res = res
  nodup : ∀ batch ∈ log, (batch.rows.map Prod.fst).Nodup
  rows : ∀ batch ∈ log, ∀ name a,
    (name, a) ∈ batch.rows ↔ aggOf (held res batch.ts name xs) = some a

theorem handed_nil (res : ℤ) : Handed res [] [] where
  increasing := List.Pairwise.nil
  exact b := by simp [Closed]
  res_eq := by simp
  nodup := by simp
  rows := by simp

/-- What is closed stays as it is with one more sample. -/
theorem held_of_closed {res b : ℤ} (hres : 0 < res) {xs : List Fed} {x : Fed}
    (ordered : Ordered (xs ++ [x])) (h : Closed time res b xs) (name : String) :
    held res b name (xs ++ [x]) = held res b name xs := by
  unfold held
  rw [inBucket_of_closed hres h ordered]

theorem closed_concat {res b : ℤ} {xs : List Fed} {x : Fed} :
    Closed time res b (xs ++ [x]) ↔ Closed time res b xs ∨ b < bucket res (time x) := by
  unfold Closed
  simp only [List.mem_append, List.mem_singleton]
  constructor
  · rintro ⟨y, hy | rfl, hlt⟩
    · exact Or.inl ⟨y, hy, hlt⟩
    · exact Or.inr hlt
  · rintro (⟨y, hy, hlt⟩ | hlt)
    · exact ⟨y, Or.inl hy, hlt⟩
    · exact ⟨x, Or.inr rfl, hlt⟩

/-- The open bucket is the last one of the samples. -/
theorem le_lastBucket {res b : ℤ} (hres : 0 < res) {xs : List Fed} (ordered : Ordered xs)
    (hlast : lastBucket res xs = some b) : ∀ y ∈ xs, bucket res (time y) ≤ b := by
  unfold lastBucket at hlast
  obtain ⟨l, hl, rfl⟩ := Option.map_eq_some_iff.1 hlast
  exact bucket_le_last hres ordered hl

theorem lastBucket_le {res b : ℤ} (hres : 0 < res) {xs : List Fed} {x : Fed}
    (ordered : Ordered (xs ++ [x])) (hlast : lastBucket res xs = some b) :
    b ≤ bucket res (time x) := by
  unfold lastBucket at hlast
  obtain ⟨l, hl, rfl⟩ := Option.map_eq_some_iff.1 hlast
  apply bucket_mono hres
  exact (List.pairwise_append.1 ordered).2.2 l (List.mem_of_getLast? hl) x (by simp)

theorem exists_row_iff {r : Roller} {res b : ℤ} {xs : List Fed} (h : Holds r res xs)
    (hlast : lastBucket res xs = some b) :
    r.acc.toList ≠ [] ↔ ∃ name, held res b name xs ≠ [] := by
  constructor
  · intro hne
    obtain ⟨⟨name, a⟩, hmem⟩ := List.exists_mem_of_ne_nil _ hne
    refine ⟨name, ?_⟩
    intro hempty
    rw [Std.ExtTreeMap.mem_toList_iff_getElem?_eq_some, h.acc_of_last hlast, hempty] at hmem
    exact Option.some_ne_none _ hmem.symm
  · rintro ⟨name, hne⟩ hempty
    cases hagg : aggOf (held res b name xs) with
    | none => exact hne (aggOf_eq_none.1 hagg)
    | some a =>
        rw [← h.acc_of_last hlast] at hagg
        have hmem := Std.ExtTreeMap.mem_toList_iff_getElem?_eq_some.2 hagg
        rw [hempty] at hmem
        simp at hmem

/-- One more sample hands out the bucket that it closes, or nothing. -/
theorem Handed.step {r : Roller} {res : ℤ} (hres : 0 < res) {xs : List Fed} {x : Fed}
    {log : List RollupBatch} (hholds : Holds r res xs) (h : Handed res xs log)
    (ordered : Ordered (xs ++ [x])) :
    Handed res (xs ++ [x]) (log ++ (rollerStep r x).2) := by
  have hordered : Ordered xs := (List.pairwise_append.1 ordered).1
  have hbefore : ∀ batch ∈ log, Closed time res batch.ts xs := fun batch hbatch =>
    ((h.exact batch.ts).1 ⟨batch, hbatch, rfl⟩).1
  -- what was handed out before still is as it was
  have hrows : ∀ batch ∈ log, ∀ name a, (name, a) ∈ batch.rows ↔
      aggOf (held res batch.ts name (xs ++ [x])) = some a := by
    intro batch hbatch name a
    rw [held_of_closed hres ordered (hbefore batch hbatch)]
    exact h.rows batch hbatch name a
  have hexact : ∀ b, Closed time res b xs →
      ((∃ batch ∈ log, batch.ts = b) ↔
        Closed time res b (xs ++ [x]) ∧ ∃ name, held res b name (xs ++ [x]) ≠ []) := by
    intro b hclosed
    simp only [held_of_closed hres ordered hclosed]
    rw [h.exact b]
    have hlater : Closed time res b (xs ++ [x]) := closed_concat.2 (Or.inl hclosed)
    simp [hclosed, hlater]
  unfold rollerStep
  rw [hholds.batch x]
  cases hlast : lastBucket res xs with
  | none =>
      have hnil : xs = [] := by
        unfold lastBucket at hlast
        rw [Option.map_eq_none_iff, List.getLast?_eq_none_iff] at hlast
        exact hlast
      subst hnil
      have hlog : log = [] := by
        rw [List.eq_nil_iff_forall_not_mem]
        intro batch hbatch
        obtain ⟨y, hy, -⟩ := hbefore batch hbatch
        exact absurd hy (by simp)
      subst hlog
      refine ⟨List.Pairwise.nil, ?_, by simp, by simp, by simp⟩
      intro b
      simp only [Option.elim_none, Option.toList_none, List.append_nil, List.not_mem_nil,
        false_and, exists_false, false_iff, not_and, not_exists, not_not]
      intro hclosed name
      apply held_eq_nil
      intro y hy heq
      obtain ⟨z, hz, hlt⟩ := hclosed
      rw [List.nil_append, List.mem_singleton] at hy hz
      subst hy hz
      omega
  | some b =>
      rw [Option.elim_some]
      have hmax := le_lastBucket hres hordered hlast
      have hle := lastBucket_le hres ordered hlast
      have hopen : ¬ Closed time res b xs := by
        rintro ⟨y, hy, hlt⟩
        exact absurd (hmax y hy) (not_le.2 hlt)
      -- a bucket that `x` closes is the open one, or has nothing
      have hnew : ∀ c, ¬ Closed time res c xs → Closed time res c (xs ++ [x]) →
          (∃ name, held res c name (xs ++ [x]) ≠ []) →
          c = b ∧ b ≠ bucket res (time x) ∧ ∃ name, held res b name xs ≠ [] := by
        intro c hnot hclosed hpoints
        have hcx : c < bucket res (time x) := (closed_concat.1 hclosed).resolve_left hnot
        obtain ⟨name, hname⟩ := hpoints
        rw [held_append, held_singleton, if_neg (by omega), List.append_nil] at hname
        have hcb : c = b := by
          by_contra hne
          apply hname
          apply held_eq_nil
          intro y hy heq
          have hyb := hmax y hy
          apply hnot
          unfold lastBucket at hlast
          obtain ⟨l, hl, hbl⟩ := Option.map_eq_some_iff.1 hlast
          exact ⟨l, List.mem_of_getLast? hl, by omega⟩
        subst hcb
        exact ⟨rfl, hcx.ne, name, hname⟩
      by_cases hskip : b = bucket res (time x) ∨ r.acc.toList = []
      · rw [if_pos hskip, Option.toList_none, List.append_nil]
        refine ⟨h.increasing, ?_, h.res_eq, h.nodup, hrows⟩
        intro c
        by_cases hc : Closed time res c xs
        · exact hexact c hc
        · constructor
          · rintro ⟨batch, hbatch, rfl⟩
            exact absurd (hbefore batch hbatch) hc
          · rintro ⟨hclosed, hpoints⟩
            obtain ⟨-, hne, hb⟩ := hnew c hc hclosed hpoints
            rcases hskip with heq | hempty
            · exact absurd heq hne
            · exact absurd hempty ((exists_row_iff hholds hlast).2 hb)
      · rw [if_neg hskip, Option.toList_some]
        rw [not_or] at hskip
        have hbx : b < bucket res (time x) := lt_of_le_of_ne hle hskip.1
        have hkeep : ∀ name, held res b name (xs ++ [x]) = held res b name xs := by
          intro name
          rw [held_append, held_singleton, if_neg (by omega), List.append_nil]
        refine ⟨?_, ?_, ?_, ?_, ?_⟩
        · rw [List.pairwise_append]
          refine ⟨h.increasing, List.pairwise_singleton _ _, ?_⟩
          intro batch hbatch new hnew'
          rw [List.mem_singleton.1 hnew']
          obtain ⟨y, hy, hlt⟩ := hbefore batch hbatch
          exact hlt.trans_le (hmax y hy)
        · intro c
          by_cases hc : Closed time res c xs
          · rw [← hexact c hc]
            simp only [List.mem_append, List.mem_singleton]
            constructor
            · rintro ⟨batch, hbatch | rfl, rfl⟩
              · exact ⟨batch, hbatch, rfl⟩
              · exact absurd hc hopen
            · rintro ⟨batch, hbatch, rfl⟩
              exact ⟨batch, Or.inl hbatch, rfl⟩
          · constructor
            · rintro ⟨batch, hbatch, rfl⟩
              rcases List.mem_append.1 hbatch with hbatch | hbatch
              · exact absurd (hbefore batch hbatch) hc
              · rw [List.mem_singleton.1 hbatch]
                refine ⟨closed_concat.2 (Or.inr hbx), ?_⟩
                simp only [hkeep]
                exact (exists_row_iff hholds hlast).1 hskip.2
            · rintro ⟨hclosed, hpoints⟩
              obtain ⟨rfl, -, -⟩ := hnew c hc hclosed hpoints
              exact ⟨_, List.mem_append_right _ (List.mem_singleton.2 rfl), rfl⟩
        · intro batch hbatch
          rcases List.mem_append.1 hbatch with hbatch | hbatch
          · exact h.res_eq batch hbatch
          · rw [List.mem_singleton.1 hbatch]
        · intro batch hbatch
          rcases List.mem_append.1 hbatch with hbatch | hbatch
          · exact h.nodup batch hbatch
          · rw [List.mem_singleton.1 hbatch]
            exact nodup_toList r.acc
        · intro batch hbatch name a
          rcases List.mem_append.1 hbatch with hbatch | hbatch
          · exact hrows batch hbatch name a
          · rw [List.mem_singleton.1 hbatch]
            dsimp only
            rw [hkeep, Std.ExtTreeMap.mem_toList_iff_getElem?_eq_some, hholds.acc_of_last hlast]

/-- A roller that is fed samples in order of time hands out the buckets as they close. -/
theorem handed {res : ℤ} (hres : 0 < res) {xs : List Fed} (ordered : Ordered xs) :
    Holds (Machine.run rollerStep { res := res } xs).1 res xs ∧
      Handed res xs (Machine.run rollerStep { res := res } xs).2 := by
  induction xs using List.reverseRecOn with
  | nil => exact ⟨holds_new res, handed_nil res⟩
  | append_singleton xs x ih =>
      obtain ⟨hholds, hhanded⟩ := ih (List.pairwise_append.1 ordered).1
      rw [Machine.run_concat]
      exact ⟨hholds.add hres ordered, hhanded.step hres hholds ordered⟩

/-! ## The interval of a bucket -/

/-- The values of a name in the samples of an interval of time. -/
def pointsIn (start stop : ℤ) (name : String) (xs : List Fed) : List ℚ :=
  (xs.filter fun x => start ≤ time x ∧ time x < stop).flatMap fun x => values name x.2

theorem held_eq_pointsIn {res b : ℤ} (hres : 0 < res) (hb : res ∣ b) (name : String)
    (xs : List Fed) : held res b name xs = pointsIn b (b + res) name xs := by
  unfold held pointsIn inBucket
  congr 1
  apply List.filter_congr
  intro x _
  rw [decide_eq_decide]
  exact bucket_eq_iff hres hb (time x)

/-- What a bucket holds is held at a multiple of its length. -/
theorem dvd_of_held {res b : ℤ} {name : String} {xs : List Fed}
    (h : held res b name xs ≠ []) : res ∣ b := by
  by_contra hnot
  apply h
  apply held_eq_nil
  rintro x _ rfl
  exact hnot (bucket_dvd _)

/-- The bucket has ended: there is a sample behind its interval. -/
def Ended (res : ℤ) (xs : List Fed) (b : ℤ) : Prop := ∃ x ∈ xs, b + res ≤ time x

theorem closed_iff_ended {res b : ℤ} (hres : 0 < res) (hb : res ∣ b) {xs : List Fed} :
    Closed time res b xs ↔ Ended res xs b := by
  unfold Closed Ended
  simp only [lt_bucket_iff hres hb]

/-- What a roller handed out of some samples: each bucket that is due and has points once, in
order of time, with the aggregates of exactly the points of its interval. -/
structure HandsOut (res : ℤ) (xs : List Fed) (due : ℤ → Prop) (log : List RollupBatch) :
    Prop where
  increasing : log.Pairwise fun b c => b.ts < c.ts
  exact : ∀ b, (∃ batch ∈ log, batch.ts = b) ↔
    res ∣ b ∧ due b ∧ ∃ name, pointsIn b (b + res) name xs ≠ []
  res_eq : ∀ batch ∈ log, batch.res = res
  nodup : ∀ batch ∈ log, (batch.rows.map Prod.fst).Nodup
  rows : ∀ batch ∈ log, ∀ name,
    batch.rows.lookup name = aggOf (pointsIn batch.ts (batch.ts + res) name xs)

theorem Handed.lookup {res : ℤ} {xs : List Fed} {log : List RollupBatch} (h : Handed res xs log)
    {batch : RollupBatch} (hbatch : batch ∈ log) (name : String) :
    batch.rows.lookup name = aggOf (held res batch.ts name xs) := by
  apply Option.ext
  intro a
  rw [lookup_eq_some_iff (h.nodup batch hbatch)]
  exact h.rows batch hbatch name a

theorem Handed.dvd {res : ℤ} {xs : List Fed} {log : List RollupBatch} (h : Handed res xs log)
    {batch : RollupBatch} (hbatch : batch ∈ log) : res ∣ batch.ts := by
  obtain ⟨-, name, hname⟩ := (h.exact batch.ts).1 ⟨batch, hbatch, rfl⟩
  exact dvd_of_held hname

theorem Handed.handsOut {res : ℤ} (hres : 0 < res) {xs : List Fed} {log : List RollupBatch}
    (h : Handed res xs log) : HandsOut res xs (Ended res xs) log where
  increasing := h.increasing
  exact b := by
    rw [h.exact b]
    constructor
    · rintro ⟨hclosed, name, hname⟩
      have hb := dvd_of_held hname
      rw [held_eq_pointsIn hres hb] at hname
      exact ⟨hb, (closed_iff_ended hres hb).1 hclosed, name, hname⟩
    · rintro ⟨hb, hended, name, hname⟩
      rw [← held_eq_pointsIn hres hb] at hname
      exact ⟨(closed_iff_ended hres hb).2 hended, name, hname⟩
  res_eq := h.res_eq
  nodup := h.nodup
  rows batch hbatch name := by
    rw [h.lookup hbatch, held_eq_pointsIn hres (h.dvd hbatch)]

/-! ## The open bucket -/

/-- A sample without points. -/
def blank (ts : ℤ) : Fed := (⟨{ ts := ts }, none, true⟩, [])

theorem pointsIn_blank (start stop ts : ℤ) (name : String) (xs : List Fed) :
    pointsIn start stop name (xs ++ [blank ts]) = pointsIn start stop name xs := by
  unfold pointsIn
  have hnone : (List.filter (fun x => decide (start ≤ time x ∧ time x < stop)) [blank ts]).flatMap
      (fun x => values name x.2) = [] := by
    rw [List.flatMap_eq_nil_iff]
    intro x hx
    rw [List.mem_singleton.1 (List.mem_of_mem_filter hx)]
    rfl
  rw [List.filter_append, List.flatMap_append, hnone, List.append_nil]

/-- Handing the open bucket out is what a sample of a later one would do. -/
theorem flush_eq {r : Roller} {res : ℤ} {xs : List Fed} (h : Holds r res xs) {ts : ℤ}
    (later : ∀ x ∈ xs, bucket res (time x) < bucket res ts) :
    r.flush.2.toList = (rollerStep r (blank ts)).2 := by
  have hstart : ts - ts % r.res = bucket res ts := by rw [h.res_eq]; rfl
  unfold rollerStep Roller.add
  dsimp only [blank, time]
  rw [hstart, h.bucket_eq]
  cases hlast : lastBucket res xs with
  | none =>
      have hnone : r.bucket = none := by rw [h.bucket_eq, hlast]
      unfold Roller.flush
      rw [hnone]
      rfl
  | some b =>
      unfold lastBucket at hlast
      obtain ⟨l, hl, rfl⟩ := Option.map_eq_some_iff.1 hlast
      have hne : bucket res (time l) ≠ bucket res ts :=
        (later l (List.mem_of_getLast? hl)).ne
      rw [if_pos (by simpa using hne)]

/-- Together with the open bucket, every bucket with points is handed out. -/
theorem flushed {res : ℤ} (hres : 0 < res) {xs : List Fed} (ordered : Ordered xs) :
    HandsOut res xs (fun _ => True) ((Machine.run rollerStep { res := res } xs).2 ++
      (Machine.run rollerStep { res := res } xs).1.flush.2.toList) := by
  obtain ⟨hholds, -⟩ := handed hres ordered
  obtain ⟨ts, hts⟩ : ∃ ts, ∀ x ∈ xs, time x + res ≤ ts := by
    cases hlast : xs.getLast? with
    | none =>
        rw [List.getLast?_eq_none_iff] at hlast
        exact ⟨0, by simp [hlast]⟩
    | some l =>
        obtain ⟨ys, rfl⟩ := List.getLast?_eq_some_iff.1 hlast
        refine ⟨time l + res, ?_⟩
        intro x hx
        rcases List.mem_append.1 hx with hx | hx
        · have hle : time x ≤ time l := (List.pairwise_append.1 ordered).2.2 x hx l (by simp)
          omega
        · rw [List.mem_singleton.1 hx]
  have hlater : ∀ x ∈ xs, bucket res (time x) < bucket res ts := by
    intro x hx
    rw [lt_bucket_iff hres (bucket_dvd _)]
    have hbelow := bucket_le hres (time x)
    have hx := hts x hx
    omega
  have hordered : Ordered (xs ++ [blank ts]) := by
    unfold Ordered
    rw [List.pairwise_append]
    refine ⟨ordered, List.pairwise_singleton _ _, ?_⟩
    intro x hx y hy
    rw [List.mem_singleton.1 hy]
    have hx := hts x hx
    show time x ≤ ts
    omega
  have hout := (handed hres hordered).2.handsOut hres
  rw [Machine.run_concat, ← flush_eq hholds hlater] at hout
  simp only at hout
  refine ⟨hout.increasing, ?_, hout.res_eq, hout.nodup, ?_⟩
  · intro b
    rw [hout.exact b]
    simp only [pointsIn_blank, true_and]
    constructor
    · rintro ⟨hb, -, hpoints⟩
      exact ⟨hb, hpoints⟩
    · rintro ⟨hb, name, hname⟩
      refine ⟨hb, ⟨blank ts, by simp, ?_⟩, name, hname⟩
      obtain ⟨v, hv⟩ := List.exists_mem_of_ne_nil _ hname
      unfold pointsIn at hv
      obtain ⟨x, hx, -⟩ := List.mem_flatMap.1 hv
      rw [List.mem_filter, decide_eq_true_eq] at hx
      have hx' := hts x hx.1
      show b + res ≤ ts
      omega
  · intro batch hbatch name
    rw [hout.rows batch hbatch, pointsIn_blank]

/-! ## The merge -/

/-- What the coarse tier hands out is the merge of what the fine one handed out of its
interval. -/
theorem merge_of_handed {fine coarse : ℤ} (hfine : 0 < fine) (hcoarse : 0 < coarse)
    (hdvd : fine ∣ coarse) {xs : List Fed} (ordered : Ordered xs) {log log' : List RollupBatch}
    (h : Handed fine xs log) (h' : Handed coarse xs log') {batch : RollupBatch}
    (hbatch : batch ∈ log') (name : String) :
    batch.rows.lookup name = fold1 Agg.merge ((log.filter fun b =>
      batch.ts ≤ b.ts ∧ b.ts < batch.ts + coarse).filterMap fun b => b.rows.lookup name) := by
  have hstart : coarse ∣ batch.ts := h'.dvd hbatch
  have hstop : fine ∣ batch.ts + coarse := Int.dvd_add (hdvd.trans hstart) hdvd
  have hended : Ended coarse xs batch.ts := by
    rw [← closed_iff_ended hcoarse hstart]
    exact ((h'.exact batch.ts).1 ⟨batch, hbatch, rfl⟩).1
  have hlookup : (log.filter fun b => batch.ts ≤ b.ts ∧ b.ts < batch.ts + coarse).filterMap
      (fun b => b.rows.lookup name) =
      ((log.filter fun b => batch.ts ≤ b.ts ∧ b.ts < batch.ts + coarse).map
        RollupBatch.ts).filterMap fun b => aggOf (held fine b name xs) := by
    rw [List.filterMap_map]
    apply List.filterMap_congr
    intro b hb
    exact h.lookup (List.mem_of_mem_filter hb) name
  rw [hlookup, ← aggOf_flatMap, h'.lookup hbatch, held_eq_pointsIn hcoarse hstart]
  congr 1
  unfold held pointsIn
  symm
  apply flatMap_inBucket _ hfine _ ordered
  · -- a sample of the interval with points lies in a fine bucket that was handed out
    intro x hx hpoints
    rw [decide_eq_true_eq, List.mem_map]
    simp only [List.mem_filter, decide_eq_true_eq]
    have hlow := le_bucket_iff hfine (hdvd.trans hstart) (time x)
    have hhigh := le_bucket_iff hfine hstop (time x)
    constructor
    · rintro ⟨hle, hlt⟩
      have hheld : held fine (bucket fine (time x)) name xs ≠ [] := by
        obtain ⟨v, hv⟩ := List.exists_mem_of_ne_nil _ hpoints
        apply List.ne_nil_of_mem (a := v)
        unfold held inBucket
        rw [List.mem_flatMap]
        exact ⟨x, by simpa using hx, hv⟩
      have hclosed : Closed time fine (bucket fine (time x)) xs := by
        obtain ⟨y, hy, hend⟩ := hended
        refine ⟨y, hy, ?_⟩
        have hy' := le_bucket_iff hfine hstop (time y)
        omega
      obtain ⟨b, hb, hbx⟩ := (h.exact _).2 ⟨hclosed, name, hheld⟩
      exact ⟨b, ⟨hb, by omega, by omega⟩, hbx⟩
    · rintro ⟨b, ⟨-, hle, hlt⟩, hbx⟩
      omega
  · rw [List.pairwise_map]
    exact h.increasing.filter _

theorem pushAll_rollers (p : Pipeline) (db : RollupDb) (fs : List Feed) :
    (p.pushAll db fs).1.m1 = (Machine.run rollerStep p.m1 (withPoints p.prev fs)).1 ∧
      (p.pushAll db fs).1.m10 = (Machine.run rollerStep p.m10 (withPoints p.prev fs)).1 := by
  induction fs generalizing p db with
  | nil => exact ⟨rfl, rfl⟩
  | cons f fs ih => exact ih (p.push db f.sample f.hists f.replace).1 _

/-- A sample at the start, one five minutes later and one that ends the ten minutes. -/
def threeFeeds : List Feed :=
  [{ sample := { ts := 0, serveUp := true } }, { sample := { ts := 300 } },
    { sample := { ts := 600 } }]

end Lss.Analysis.TierMerge
