import Lss.Analysis.RollupRows

/-!
# Buckets a run has passed

Where the clock may step back, a bucket is behind a run when the run was in it once and has
left it: the samples of the bucket came one after the other, and one of another bucket came
after them. The row of such a bucket is made of exactly its points, whatever the order of the
other samples.
-/

set_option autoImplicit false

namespace Lss.Analysis.PassedBuckets

open Lss.Library.Buckets Lss.Model Lss.Analysis.RollupRows

/-- The bucket a sample falls into. -/
def bucketOf (res : ℤ) (f : Feed) : ℤ := bucket res f.sample.ts

/-- The run has no sample in the bucket, or was in it once and has left it. -/
def Passed (res b : ℤ) (fs : List Feed) : Prop :=
  ∃ pre mid post, fs = pre ++ mid ++ post ∧ (∀ f ∈ pre, bucketOf res f ≠ b) ∧
    (∀ f ∈ mid, bucketOf res f = b) ∧ (∀ f ∈ post, bucketOf res f ≠ b) ∧ (mid = [] ∨ post ≠ [])

/-- A bucket without samples is none of the run's. -/
theorem passed_of_empty {res b : ℤ} {fs : List Feed} (h : ∀ f ∈ fs, bucketOf res f ≠ b) :
    Passed res b fs := ⟨fs, [], [], by simp, h, by simp, by simp, Or.inl rfl⟩

/-- A run in order of time has passed the buckets that are closed. -/
theorem passed_of_closed {res b : ℤ} (hres : 0 < res) {fs : List Feed} (inorder : InOrder fs)
    (h : Closed Sample.ts res b (fs.map Feed.sample)) : Passed res b fs := by
  refine ⟨fs.filter fun f => bucketOf res f < b, fs.filter fun f => bucketOf res f = b,
    fs.filter fun f => b < bucketOf res f, ?_, ?_, ?_, ?_, Or.inr ?_⟩
  · clear h
    induction fs with
    | nil => rfl
    | cons f fs ih =>
        obtain ⟨hfirst, hrest⟩ := List.pairwise_cons.1 inorder
        have hlater : ∀ g ∈ fs, bucketOf res f ≤ bucketOf res g := fun g hg =>
          bucket_mono hres (hfirst g hg)
        have hfs := ih hrest
        -- what is before the bucket of the first sample is empty
        have hnone : ∀ keep : Feed → Bool, (∀ g ∈ fs, keep g = false) → fs.filter keep = [] := by
          intro keep hkeep
          rw [List.filter_eq_nil_iff]
          intro g hg
          simp [hkeep g hg]
        rcases lt_trichotomy (bucketOf res f) b with hlt | heq | hgt
        · rw [List.filter_cons_of_pos (by simpa using hlt),
            List.filter_cons_of_neg (by simpa using hlt.ne),
            List.filter_cons_of_neg (by simpa using hlt.le), List.cons_append, List.cons_append,
            ← hfs]
        · have hbefore : (fs.filter fun f => decide (bucketOf res f < b)) = [] := by
            apply hnone
            intro g hg
            have hle := hlater g hg
            simpa using heq ▸ hle
          rw [List.filter_cons_of_neg (by simpa using heq.ge),
            List.filter_cons_of_pos (by simpa using heq),
            List.filter_cons_of_neg (by simpa using heq.le), hbefore, List.nil_append,
            List.cons_append]
          rw [hbefore, List.nil_append] at hfs
          rw [← hfs]
        · have hbefore : (fs.filter fun f => decide (bucketOf res f < b)) = [] := by
            apply hnone
            intro g hg
            have hle := hlater g hg
            simpa using (hgt.trans_le hle).le
          have hin : (fs.filter fun f => decide (bucketOf res f = b)) = [] := by
            apply hnone
            intro g hg
            have hle := hlater g hg
            simpa using (hgt.trans_le hle).ne'
          rw [List.filter_cons_of_neg (by simpa using hgt.le),
            List.filter_cons_of_neg (by simpa using hgt.ne'),
            List.filter_cons_of_pos (by simpa using hgt), hbefore, hin, List.nil_append,
            List.nil_append]
          rw [hbefore, hin, List.nil_append, List.nil_append] at hfs
          rw [← hfs]
  · intro f hf
    have hlt := (List.mem_filter.1 hf).2
    rw [decide_eq_true_eq] at hlt
    exact hlt.ne
  · intro f hf
    exact of_decide_eq_true (List.mem_filter.1 hf).2
  · intro f hf
    have hlt := (List.mem_filter.1 hf).2
    rw [decide_eq_true_eq] at hlt
    exact hlt.ne'
  · obtain ⟨s, hs, hlt⟩ := h
    obtain ⟨f, hf, rfl⟩ := List.mem_map.1 hs
    exact List.ne_nil_of_mem (List.mem_filter.2 ⟨hf, decide_eq_true hlt⟩)

/-! ## One tier of a pipeline -/

/-- The roller of a tier. -/
def tierOf (res : ℤ) (p : Pipeline) : Roller := if res = res1m then p.m1 else p.m10

/-- The rollers of a pipeline have the lengths of their tiers, and hold nothing while no bucket
is open. -/
structure Tiers (p : Pipeline) : Prop where
  res_eq : ∀ res ∈ [res1m, res10m], (tierOf res p).res = res
  empty : ∀ res ∈ [res1m, res10m], (tierOf res p).bucket = none → (tierOf res p).acc = ∅

theorem tiers_new : Tiers {} where
  res_eq res h := by rcases List.mem_pair.1 h with rfl | rfl <;> rfl
  empty res h _ := by rcases List.mem_pair.1 h with rfl | rfl <;> rfl

theorem tierOf_push (res : ℤ) (p : Pipeline) (db : RollupDb) (f : Feed) :
    tierOf res (p.push db f.sample f.hists f.replace).1 =
      ((tierOf res p).add f.sample.ts (samplePoints p.prev f.sample)).1 := by
  unfold tierOf Pipeline.push
  split <;> rfl

theorem add_bucket (r : Roller) (ts : ℤ) (points : List (String × ℚ)) :
    (r.add ts points).1.bucket = some (bucket r.res ts) := rfl

theorem add_res (r : Roller) (ts : ℤ) (points : List (String × ℚ)) :
    (r.add ts points).1.res = r.res := by
  unfold Roller.add Roller.flush
  dsimp only
  split
  · split <;> rfl
  · rfl

theorem Tiers.push {p : Pipeline} (h : Tiers p) (db : RollupDb) (f : Feed) :
    Tiers (p.push db f.sample f.hists f.replace).1 where
  res_eq res hres := by rw [tierOf_push, add_res, h.res_eq res hres]
  empty res hres hnone := by
    rw [tierOf_push, add_bucket] at hnone
    exact absurd hnone (Option.some_ne_none _)

/-- A roller goes on in its bucket. -/
theorem add_same {r : Roller} {ts : ℤ} (h : r.bucket = some (bucket r.res ts))
    (points : List (String × ℚ)) :
    (r.add ts points).1.acc = points.foldl Roller.addPoint r.acc ∧ (r.add ts points).2 = none := by
  unfold Roller.add
  have hsame : (r.bucket.any fun b => b != ts - ts % r.res) = false := by
    rw [h]
    simp [bucket]
  dsimp only
  rw [hsame]
  exact ⟨rfl, rfl⟩

/-- A roller starts another bucket, and hands out the one before it. -/
theorem add_other {r : Roller} {ts : ℤ} (h : r.bucket ≠ some (bucket r.res ts))
    (hempty : r.bucket = none → r.acc = ∅) (points : List (String × ℚ)) :
    (r.add ts points).1.acc = points.foldl Roller.addPoint ∅ ∧
      (r.add ts points).2 = r.flush.2 := by
  unfold Roller.add
  dsimp only
  cases hb : r.bucket with
  | none =>
      have hnone : r.flush.2 = none := by
        unfold Roller.flush
        rw [hb]
      rw [Option.any_none, hnone, ← hempty hb]
      exact ⟨rfl, rfl⟩
  | some b =>
      have hne : b ≠ ts - ts % r.res := fun heq => h (by rw [hb, heq]; rfl)
      have hother : (b != ts - ts % r.res) = true := by simpa using hne
      rw [Option.any_some, hother, if_pos rfl]
      unfold Roller.flush
      rw [hb]
      exact ⟨rfl, rfl⟩

/-- One more sample changes the rows of the open bucket, when it is of another one. -/
theorem push_row {p : Pipeline} (h : Tiers p) (db : RollupDb) (f : Feed) {res : ℤ}
    (hres : res ∈ [res1m, res10m]) {name : String} (hname : name ∉ latencyNames) (b : ℤ) :
    (p.push db f.sample f.hists f.replace).2.rollup res name b =
      if (tierOf res p).bucket = some b ∧ bucketOf res f ≠ b then
        combine f.replace ((tierOf res p).acc[name]?.map Agg.row) (db.rollup res name b)
      else db.rollup res name b := by
  have h1 : p.m1.res = res1m := h.res_eq res1m (by simp)
  have h10 : p.m10.res = res10m := h.res_eq res10m (by simp)
  have hne : res1m ≠ res10m := by decide
  unfold Pipeline.push
  dsimp only
  rw [gateStep_frame, foldl_writeWindow_frame _ _ _ _ hname, writeBatch_row, writeBatch_row, h1,
    h10]
  rcases List.mem_pair.1 hres with rfl | rfl
  · rw [if_neg (fun hc => hne hc.1)]
    simp only [true_and]
    rfl
  · rw [if_neg (c := res10m = res1m ∧ _) (fun hc => hne hc.1.symm)]
    simp only [true_and]
    rfl

/-! ## A run before, in and behind a bucket -/

section Bucket

variable {res : ℤ} (hres : res ∈ [res1m, res10m]) {name : String} (hname : name ∉ latencyNames)
  {b : ℤ}
include hres hname

/-- Away from the bucket its row stays. -/
theorem pushAll_away {p : Pipeline} (h : Tiers p) (db : RollupDb) {fs : List Feed}
    (away : ∀ f ∈ fs, bucketOf res f ≠ b) (hb : (tierOf res p).bucket ≠ some b) :
    Tiers (p.pushAll db fs).1 ∧ (tierOf res (p.pushAll db fs).1).bucket ≠ some b ∧
      (p.pushAll db fs).2.rollup res name b = db.rollup res name b := by
  induction fs generalizing p db with
  | nil => exact ⟨h, hb, rfl⟩
  | cons f fs ih =>
      have hf : bucketOf res f ≠ b := away f (by simp)
      have hopen : (tierOf res (p.push db f.sample f.hists f.replace).1).bucket ≠ some b := by
        rw [tierOf_push, add_bucket, h.res_eq res hres]
        exact fun heq => hf (Option.some.inj heq)
      obtain ⟨htiers, hbucket, hrow⟩ := ih (h.push db f)
        (p.push db f.sample f.hists f.replace).2 (fun g hg => away g (by simp [hg])) hopen
      refine ⟨htiers, hbucket, ?_⟩
      rw [show p.pushAll db (f :: fs) = (p.push db f.sample f.hists f.replace).1.pushAll
        (p.push db f.sample f.hists f.replace).2 fs from rfl, hrow, push_row h db f hres hname,
        if_neg (fun hc => hb hc.1)]

/-- The roller of the tier is in the bucket and holds some values of the name. -/
structure Inside (res b : ℤ) (name : String) (p : Pipeline) (vs : List ℚ) : Prop where
  bucket_eq : (tierOf res p).bucket = some b
  acc_eq : (tierOf res p).acc[name]? = aggOf vs

/-- The first sample of the bucket. -/
theorem push_enter {p : Pipeline} (h : Tiers p) (db : RollupDb) {f : Feed}
    (hf : bucketOf res f = b) (hb : (tierOf res p).bucket ≠ some b) :
    Inside res b name (p.push db f.sample f.hists f.replace).1
        (values name (samplePoints p.prev f.sample)) ∧
      (p.push db f.sample f.hists f.replace).2.rollup res name b = db.rollup res name b := by
  have hbucket : bucket (tierOf res p).res f.sample.ts = b := by rw [h.res_eq res hres]; exact hf
  refine ⟨⟨?_, ?_⟩, ?_⟩
  · rw [tierOf_push, add_bucket, hbucket]
  · rw [tierOf_push, (add_other (by rw [hbucket]; exact hb) (h.empty res hres) _).1]
    exact getElem?_foldl_addPoint _ (by simp [aggOf] : _ = aggOf [])
  · rw [push_row h db f hres hname, if_neg (fun hc => hb hc.1)]

/-- The samples of the bucket after the first. -/
theorem pushAll_inside {p : Pipeline} (h : Tiers p) (db : RollupDb) {fs : List Feed}
    (inside : ∀ f ∈ fs, bucketOf res f = b) {vs : List ℚ} (hin : Inside res b name p vs) :
    Tiers (p.pushAll db fs).1 ∧
      Inside res b name (p.pushAll db fs).1 (vs ++ held res b name (withPoints p.prev fs)) ∧
      (p.pushAll db fs).2.rollup res name b = db.rollup res name b := by
  induction fs generalizing p db vs with
  | nil =>
      refine ⟨h, ?_, rfl⟩
      rw [show held res b name (withPoints p.prev []) = [] from rfl, List.append_nil]
      exact hin
  | cons f fs ih =>
      have hf : bucketOf res f = b := inside f (by simp)
      have hbucket : (tierOf res p).bucket = some (bucket (tierOf res p).res f.sample.ts) := by
        rw [hin.bucket_eq, h.res_eq res hres]
        exact congrArg some hf.symm
      have hin' : Inside res b name (p.push db f.sample f.hists f.replace).1
          (vs ++ values name (samplePoints p.prev f.sample)) := by
        refine ⟨?_, ?_⟩
        · rw [tierOf_push, add_bucket, ← hbucket, hin.bucket_eq]
        · rw [tierOf_push, (add_same hbucket _).1]
          exact getElem?_foldl_addPoint _ hin.acc_eq
      obtain ⟨htiers, hins, hrow⟩ := ih (h.push db f)
        (p.push db f.sample f.hists f.replace).2 (fun g hg => inside g (by simp [hg])) hin'
      have hheld : held res b name (withPoints p.prev (f :: fs)) =
          values name (samplePoints p.prev f.sample) ++
            held res b name (withPoints (some f.sample) fs) := by
        rw [withPoints, ← List.singleton_append, held_append, held_singleton]
        exact congrArg (· ++ _) (if_pos hf)
      refine ⟨htiers, ?_, ?_⟩
      · rw [hheld, ← List.append_assoc]
        exact hins
      · rw [show p.pushAll db (f :: fs) = (p.push db f.sample f.hists f.replace).1.pushAll
          (p.push db f.sample f.hists f.replace).2 fs from rfl, hrow, push_row h db f hres hname,
          if_neg (fun hc => hc.2 hf)]

omit hres hname in
theorem tierOf_new (res : ℤ) : (tierOf res {}).bucket = none := by
  unfold tierOf
  split <;> rfl

omit hres hname in
theorem prev_pushAll (p : Pipeline) (db : RollupDb) (fs : List Feed) :
    (p.pushAll db fs).1.prev = (fs.getLast?.map Feed.sample).or p.prev := by
  induction fs using List.reverseRecOn with
  | nil => rfl
  | append_singleton fs f _ =>
      rw [pushAll_concat, List.getLast?_concat]
      rfl

omit hres hname in
theorem held_away {fs : List Feed} {prev : Option Sample}
    (away : ∀ f ∈ fs, bucketOf res f ≠ b) : held res b name (withPoints prev fs) = [] := by
  apply held_eq_nil
  intro x hx
  exact away x.1 (time_of_mem_withPoints hx)

/-- The row of a bucket the run has passed is made of the points of its samples. -/
theorem row_of_passed {fs : List Feed} (h : Passed res b fs) :
    (({} : Pipeline).pushAll {} fs).2.rollup res name b =
      (aggOf (held res b name (withPoints none fs))).map Agg.row := by
  obtain ⟨pre, mid, post, rfl, hpre, hmid, hpost, hleft⟩ := h
  have hnew : (tierOf res {}).bucket ≠ some b := by rw [tierOf_new]; exact (Option.some_ne_none b).symm
  obtain ⟨htiers, hbucket, hrow⟩ := pushAll_away hres hname tiers_new {} hpre hnew
  rw [withPoints_append, withPoints_append, held_append, held_append, held_away hpre,
    held_away hpost, List.nil_append, List.append_nil, Option.or_none]
  cases mid with
  | nil =>
      rw [List.append_nil, pushAll_append,
        (pushAll_away hres hname htiers _ hpost hbucket).2.2, hrow]
      rfl
  | cons f mid =>
      obtain ⟨last, post, rfl⟩ := List.exists_cons_of_ne_nil (hleft.resolve_left (by simp))
      -- in with the first sample of the bucket, and out with the first of another one
      set before := ({} : Pipeline).pushAll {} pre with hbefore
      set entered := before.1.push before.2 f.sample f.hists f.replace with hentered
      set full := entered.1.pushAll entered.2 mid with hfull
      set left := full.1.push full.2 last.sample last.hists last.replace with hleave
      have hrun : ({} : Pipeline).pushAll {} (pre ++ f :: mid ++ last :: post) =
          left.1.pushAll left.2 post := by
        rw [pushAll_append, pushAll_append]
        rfl
      obtain ⟨hin, henter⟩ := push_enter hres hname htiers before.2 (hmid f (by simp)) hbucket
      obtain ⟨htiers', hins, hinside⟩ := pushAll_inside hres hname (htiers.push before.2 f)
        entered.2 (fun g hg => hmid g (List.mem_cons_of_mem f hg)) hin
      have hlast : bucketOf res last ≠ b := hpost last (by simp)
      have hopen : (tierOf res left.1).bucket ≠ some b := by
        rw [hleave, tierOf_push, add_bucket, htiers'.res_eq res hres]
        exact fun heq => hlast (Option.some.inj heq)
      have hwrite := push_row htiers' full.2 last hres hname b
      rw [if_pos ⟨hins.bucket_eq, hlast⟩, hins.acc_eq] at hwrite
      have hbehind := (pushAll_away hres hname (htiers'.push full.2 last) left.2
        (fun g hg => hpost g (List.mem_cons_of_mem last hg)) hopen).2.2
      have hheld : held res b name (withPoints (pre.getLast?.map Feed.sample) (f :: mid)) =
          values name (samplePoints before.1.prev f.sample) ++
            held res b name (withPoints (some f.sample) mid) := by
        rw [withPoints, ← List.singleton_append, held_append, held_singleton, hbefore,
          prev_pushAll, Option.or_none]
        exact congrArg (· ++ _) (if_pos (hmid f (by simp)))
      rw [hrun, hbehind, hleave, hwrite, hinside, henter, hrow, hheld]
      unfold combine
      cases last.replace with
      | true => exact Option.or_none
      | false => rfl

end Bucket

end Lss.Analysis.PassedBuckets
