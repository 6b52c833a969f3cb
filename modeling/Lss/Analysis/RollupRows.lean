import Mathlib.Data.List.Induction
import Mathlib.Tactic.Linarith
import Lss.Model.Rollup

/-!
# The rows a pipeline writes

A row of the rollup holds the points of one name in one bucket. After a pipeline was fed
samples in order of time, the row of a bucket that is closed is made of the points of all its
samples, and was written when the first sample of a later bucket arrived; the rows of the
other buckets are what they were. Both tiers are rollers, so this is shown once for a roller
and used for both.
-/

set_option autoImplicit false

namespace Lss.Analysis.RollupRows

open Lss.Library.Buckets Lss.Model

/-! ## Aggregates -/

/-- The aggregate of some values. -/
def aggOf : List ℚ → Option Agg
  | [] => none
  | v :: vs => some (vs.foldl (fun a v => a.merge (Agg.one v)) (Agg.one v))

theorem aggOf_concat (vs : List ℚ) (v : ℚ) :
    aggOf (vs ++ [v]) = some ((aggOf vs).elim (Agg.one v) fun a => a.merge (Agg.one v)) := by
  cases vs with
  | nil => rfl
  | cons u vs => simp [aggOf]

/-- An aggregate counts its values and adds them up. -/
theorem sum_and_n_of_aggOf {vs : List ℚ} {a : Agg} (h : aggOf vs = some a) :
    a.sum = vs.sum ∧ a.n = vs.length := by
  induction vs using List.reverseRecOn generalizing a with
  | nil => exact absurd h (by simp [aggOf])
  | append_singleton vs v ih =>
      rw [aggOf_concat, Option.some.injEq] at h
      subst h
      cases hvs : aggOf vs with
      | none =>
          have hnil : vs = [] := by
            cases vs with
            | nil => rfl
            | cons u vs => simp [aggOf] at hvs
          subst hnil
          simp [Agg.one]
      | some a =>
          obtain ⟨hsum, hn⟩ := ih hvs
          simp [Agg.merge, Agg.one, hsum, hn]

theorem aggOf_eq_none {vs : List ℚ} : aggOf vs = none ↔ vs = [] := by
  cases vs <;> simp [aggOf]

theorem one_le_n {vs : List ℚ} {a : Agg} (h : aggOf vs = some a) : 1 ≤ a.n := by
  rw [(sum_and_n_of_aggOf h).2]
  cases vs with
  | nil => simp [aggOf] at h
  | cons v vs => simp

/-- What a row gives back is the aggregate it was written from. -/
theorem agg_row {a : Agg} (h : 1 ≤ a.n) : a.row.agg = a := by
  have hn : max a.n 1 = a.n := max_eq_left h
  have hne : a.n ≠ 0 := by linarith
  unfold Agg.row RollupRow.agg Agg.fromRow Agg.avg
  ext <;> simp [hn, hne]

/-! ## The points of one name -/

/-- The values of one name among some points. -/
def values (name : String) (points : List (String × ℚ)) : List ℚ :=
  (points.filter fun p => p.1 == name).map Prod.snd

theorem values_append (name : String) (ps qs : List (String × ℚ)) :
    values name (ps ++ qs) = values name ps ++ values name qs := by
  unfold values
  rw [List.filter_append, List.map_append]

theorem values_cons (name : String) (p : String × ℚ) (ps : List (String × ℚ)) :
    values name (p :: ps) = (if p.1 = name then [p.2] else []) ++ values name ps := by
  unfold values
  by_cases h : p.1 = name
  · simp [h]
  · simp [h]

/-- Folding points into an accumulator extends the values of a name. -/
theorem getElem?_foldl_addPoint (points : List (String × ℚ)) {acc : Std.ExtTreeMap String Agg}
    {name : String} {vs : List ℚ} (h : acc[name]? = aggOf vs) :
    (points.foldl Roller.addPoint acc)[name]? = aggOf (vs ++ values name points) := by
  induction points generalizing acc vs with
  | nil => simpa [values] using h
  | cons p points ih =>
      have hstep : (Roller.addPoint acc p)[name]? =
          aggOf (vs ++ if p.1 = name then [p.2] else []) := by
        unfold Roller.addPoint
        by_cases hp : p.1 = name
        · subst hp
          rw [if_pos rfl, aggOf_concat, ← h]
          cases hacc : acc[p.1]? with
          | none => simp
          | some a => simp
        · rw [if_neg hp, List.append_nil, ← h]
          split <;> rw [Std.ExtTreeMap.getElem?_insert, if_neg (by simpa using hp)]
      rw [List.foldl_cons, ih hstep, values_cons, List.append_assoc]

/-! ## Writing rows -/

/-- The row that is there after a write, from the new one and the old one. -/
def combine (replace : Bool) (new old : Option RollupRow) : Option RollupRow :=
  if replace then new.or old else old.or new

theorem write_apply (t : RollupTable) (replace : Bool) (res res' : ℤ) (name name' : String)
    (ts ts' : ℤ) (row : RollupRow) :
    t.write replace res name ts row res' name' ts' =
      if res' = res ∧ name' = name ∧ ts' = ts then combine replace (some row) (t res' name' ts')
      else t res' name' ts' := by
  unfold RollupTable.write combine
  split
  · next h =>
      obtain ⟨rfl, rfl, rfl⟩ := h
      cases replace <;> rfl
  · rfl

/-- Rows of other names, tiers or buckets stay. -/
theorem writeRollup_frame (db : RollupDb) (batch : RollupBatch) (replace : Bool) {res : ℤ}
    {name : String} {ts : ℤ}
    (h : ∀ r ∈ batch.rows, ¬ (res = batch.res ∧ name = r.1 ∧ ts = batch.ts)) :
    (db.writeRollup batch replace).rollup res name ts = db.rollup res name ts := by
  obtain ⟨bres, bts, rows⟩ := batch
  unfold RollupDb.writeRollup
  dsimp only at h ⊢
  generalize db.rollup = t
  induction rows generalizing t with
  | nil => rfl
  | cons r rows ih =>
      rw [List.foldl_cons, ih fun r' hr' => h r' (List.mem_cons_of_mem _ hr'), write_apply,
        if_neg (h r (by simp))]

/-- The row of a name of a batch. -/
theorem writeRollup_mem (db : RollupDb) (batch : RollupBatch) (replace : Bool) {name : String}
    {a : Agg} (distinct : batch.rows.Pairwise fun r s => r.1 ≠ s.1) (h : (name, a) ∈ batch.rows) :
    (db.writeRollup batch replace).rollup batch.res name batch.ts =
      combine replace (some a.row) (db.rollup batch.res name batch.ts) := by
  obtain ⟨res, ts, rows⟩ := batch
  induction rows generalizing db with
  | nil => exact absurd h (by simp)
  | cons r rows ih =>
      rw [List.pairwise_cons] at distinct
      have hsplit : db.writeRollup ⟨res, ts, r :: rows⟩ replace =
          (db.writeRollup ⟨res, ts, [r]⟩ replace).writeRollup ⟨res, ts, rows⟩ replace := rfl
      dsimp only at h ih ⊢
      rw [hsplit]
      rcases List.mem_cons.1 h with rfl | hmem
      · rw [writeRollup_frame]
        · show (db.rollup.write replace res name ts a.row) res name ts = _
          rw [write_apply, if_pos ⟨rfl, rfl, rfl⟩]
        · rintro r' hr' ⟨-, hname, -⟩
          exact distinct.1 r' hr' hname
      · rw [ih _ distinct.2 hmem]
        congr 1
        apply writeRollup_frame
        rintro r' hr' ⟨-, hname, -⟩
        rw [List.mem_singleton.1 hr'] at hname
        exact distinct.1 _ hmem hname.symm

/-- Writing what an accumulator holds writes a row for each of its names. -/
theorem writeRollup_acc (db : RollupDb) (res ts : ℤ) (acc : Std.ExtTreeMap String Agg)
    (replace : Bool) (name : String) :
    (db.writeRollup ⟨res, ts, acc.toList⟩ replace).rollup res name ts =
      combine replace (acc[name]?.map Agg.row) (db.rollup res name ts) := by
  cases hacc : acc[name]? with
  | none =>
      rw [writeRollup_frame]
      · cases replace with
        | true => rfl
        | false => simp [combine]
      · rintro r hr ⟨-, hname, -⟩
        rw [Std.ExtTreeMap.mem_toList_iff_getElem?_eq_some, ← hname, hacc] at hr
        exact Option.some_ne_none _ hr.symm
  | some a =>
      apply writeRollup_mem
      · apply Std.ExtTreeMap.distinct_keys_toList.imp
        intro r s hne heq
        exact hne (by rw [heq]; exact Std.ReflCmp.compare_self)
      · exact Std.ExtTreeMap.mem_toList_iff_getElem?_eq_some.2 hacc

/-! ## What a roller holds -/

/-- A sample on its way into a pipeline, with the points it contributes. -/
abbrev Fed := Feed × List (String × ℚ)

/-- The time of a sample on its way. -/
def time (x : Fed) : ℤ := x.1.sample.ts

/-- The samples that are fed, each with its points; the one before the first is `prev`. -/
def withPoints : Option Sample → List Feed → List Fed
  | _, [] => []
  | prev, f :: feeds => (f, samplePoints prev f.sample) :: withPoints (some f.sample) feeds

/-- The values of a name in one bucket. -/
def held (res b : ℤ) (name : String) (xs : List Fed) : List ℚ :=
  (inBucket time res b xs).flatMap fun x => values name x.2

theorem held_append (res b : ℤ) (name : String) (xs ys : List Fed) :
    held res b name (xs ++ ys) = held res b name xs ++ held res b name ys := by
  unfold held
  rw [inBucket_append, List.flatMap_append]

theorem held_singleton (res b : ℤ) (name : String) (x : Fed) :
    held res b name [x] = if bucket res (time x) = b then values name x.2 else [] := by
  unfold held inBucket
  by_cases h : bucket res (time x) = b
  · simp [h]
  · simp [h]

theorem held_eq_nil {res b : ℤ} {name : String} {xs : List Fed}
    (h : ∀ x ∈ xs, bucket res (time x) ≠ b) : held res b name xs = [] := by
  unfold held
  rw [inBucket_eq_nil h]
  rfl

/-- The bucket of the last sample that was fed. -/
def lastBucket (res : ℤ) (xs : List Fed) : Option ℤ := xs.getLast?.map fun x => bucket res (time x)

/-- Samples in order of time. -/
def Ordered (xs : List Fed) : Prop := xs.Pairwise fun x y => time x ≤ time y

/-- A roller that was fed some samples holds the open bucket. -/
structure Holds (r : Roller) (res : ℤ) (xs : List Fed) : Prop where
  res_eq : r.res = res
  bucket_eq : r.bucket = lastBucket res xs
  acc_eq : ∀ name, r.acc[name]? = aggOf (xs.getLast?.elim [] fun l =>
    held res (bucket res (time l)) name xs)

theorem holds_new (res : ℤ) : Holds { res := res } res [] :=
  ⟨rfl, rfl, fun name => by simp [aggOf]⟩

/-- The bucket of the last sample is not before that of any other. -/
theorem bucket_le_last {res : ℤ} (hres : 0 < res) {xs : List Fed} {l : Fed}
    (ordered : Ordered xs) (hlast : xs.getLast? = some l) :
    ∀ x ∈ xs, bucket res (time x) ≤ bucket res (time l) := by
  intro x hx
  obtain ⟨ys, rfl⟩ := List.getLast?_eq_some_iff.1 hlast
  apply bucket_mono hres
  rcases List.mem_append.1 hx with hx | hx
  · exact (List.pairwise_append.1 ordered).2.2 x hx l (by simp)
  · rw [List.mem_singleton.1 hx]

/-- A roller takes one more sample. -/
theorem Holds.add {r : Roller} {res : ℤ} {xs : List Fed} (hres : 0 < res) (h : Holds r res xs)
    {x : Fed} (ordered : Ordered (xs ++ [x])) :
    Holds (r.add (time x) x.2).1 res (xs ++ [x]) := by
  have hordered : Ordered xs := (List.pairwise_append.1 ordered).1
  have hstart : time x - time x % r.res = bucket res (time x) := by rw [h.res_eq]; rfl
  have hbucket : (r.add (time x) x.2).1.bucket = some (bucket res (time x)) := by
    unfold Roller.add
    dsimp only
    rw [hstart]
  have hkeep : (r.add (time x) x.2).1.res = res := by
    unfold Roller.add Roller.flush
    dsimp only
    split
    · split <;> exact h.res_eq
    · exact h.res_eq
  refine ⟨hkeep, ?_, ?_⟩
  · rw [hbucket]
    simp [lastBucket]
  · intro name
    rw [List.getLast?_concat, Option.elim_some, held_append, held_singleton, if_pos rfl]
    unfold Roller.add
    dsimp only
    rw [hstart]
    cases hlast : xs.getLast? with
    | none =>
        have hnil : xs = [] := List.getLast?_eq_none_iff.1 hlast
        have hb : r.bucket = none := by rw [h.bucket_eq, lastBucket, hlast]; rfl
        rw [hb]
        subst hnil
        have hacc : r.acc[name]? = aggOf [] := by
          rw [h.acc_eq name]
          rfl
        exact getElem?_foldl_addPoint x.2 hacc
    | some l =>
        have hb : r.bucket = some (bucket res (time l)) := by
          rw [h.bucket_eq, lastBucket, hlast]
          rfl
        rw [hb]
        by_cases hsame : bucket res (time l) = bucket res (time x)
        · rw [if_neg (by simp [hsame]), ← hsame]
          apply getElem?_foldl_addPoint x.2
          rw [h.acc_eq name, hlast]
          rfl
        · -- the bucket was handed out, and none of the samples before is in the new one
          rw [if_pos (by simpa using hsame)]
          have hempty : held res (bucket res (time x)) name xs = [] := by
            apply held_eq_nil
            intro y hy heq
            have hle := bucket_le_last hres hordered hlast y hy
            have hmono : bucket res (time l) ≤ bucket res (time x) := by
              apply bucket_mono hres
              exact (List.pairwise_append.1 ordered).2.2 l (List.mem_of_getLast? hlast) x (by simp)
            omega
          rw [hempty]
          unfold Roller.flush
          rw [hb]
          exact getElem?_foldl_addPoint x.2 (by simp [aggOf] : _ = aggOf [])

theorem Holds.acc_of_last {r : Roller} {res b : ℤ} {xs : List Fed} (h : Holds r res xs)
    (hlast : lastBucket res xs = some b) (name : String) :
    r.acc[name]? = aggOf (held res b name xs) := by
  unfold lastBucket at hlast
  obtain ⟨l, hl, rfl⟩ := Option.map_eq_some_iff.1 hlast
  rw [h.acc_eq name, hl]
  rfl

/-- What a roller hands out with one more sample: the open bucket, when the sample is of another
one and it has points. -/
theorem add_batch (r : Roller) (ts : ℤ) (points : List (String × ℚ)) :
    (r.add ts points).2 = r.bucket.elim none fun b =>
      if b = bucket r.res ts ∨ r.acc.toList = [] then none
      else some ⟨r.res, b, r.acc.toList⟩ := by
  have hstart : ts - ts % r.res = bucket r.res ts := rfl
  unfold Roller.add Roller.flush
  dsimp only
  rw [hstart]
  cases r.bucket with
  | none => rfl
  | some b =>
      rw [Option.elim_some]
      by_cases hsame : b = bucket r.res ts
      · rw [if_neg (by simp [hsame]), if_pos (Or.inl hsame)]
      · rw [if_pos (by simpa using hsame)]
        dsimp only
        by_cases hempty : r.acc.toList = []
        · rw [if_pos (by rw [hempty]; rfl), if_pos (Or.inr hempty)]
        · rw [if_neg (by simpa using hempty), if_neg (by simp [hsame, hempty])]

theorem getElem?_of_toList_nil {acc : Std.ExtTreeMap String Agg} (h : acc.toList = [])
    (name : String) : acc[name]? = none := by
  cases hn : acc[name]? with
  | none => rfl
  | some a =>
      have hmem := Std.ExtTreeMap.mem_toList_iff_getElem?_eq_some.2 hn
      rw [h] at hmem
      simp at hmem

/-- What a roller hands out with one more sample changes the rows of its open bucket, when the
sample is of another one. -/
theorem writeBatch_row (r : Roller) (ts : ℤ) (points : List (String × ℚ)) (db : RollupDb)
    (replace : Bool) (res : ℤ) (name : String) (b : ℤ) :
    (writeBatch db (r.add ts points).2 replace).rollup res name b =
      if res = r.res ∧ r.bucket = some b ∧ bucket r.res ts ≠ b then
        combine replace (r.acc[name]?.map Agg.row) (db.rollup res name b)
      else db.rollup res name b := by
  rw [add_batch]
  cases r.bucket with
  | none =>
      rw [if_neg (by simp)]
      rfl
  | some l =>
      rw [Option.elim_some]
      by_cases hskip : l = bucket r.res ts ∨ r.acc.toList = []
      · rw [if_pos hskip]
        split
        · next hcond =>
            obtain ⟨-, hbucket, hne⟩ := hcond
            rw [Option.some.injEq] at hbucket
            subst hbucket
            have hempty : r.acc.toList = [] := hskip.resolve_left fun heq => hne heq.symm
            rw [getElem?_of_toList_nil hempty]
            cases replace with
            | true => rfl
            | false => simp [combine, Model.writeBatch]
        · rfl
      · rw [if_neg hskip]
        rw [not_or] at hskip
        show (db.writeRollup ⟨r.res, l, r.acc.toList⟩ replace).rollup res name b = _
        split
        · next hcond =>
            obtain ⟨rfl, hbucket, -⟩ := hcond
            rw [Option.some.injEq] at hbucket
            subst hbucket
            rw [writeRollup_acc]
        · next hcond =>
            apply writeRollup_frame
            rintro r' - ⟨hr, -, hts⟩
            apply hcond
            refine ⟨hr, by rw [hts], ?_⟩
            rw [hts]
            exact fun heq => hskip.1 heq.symm

/-- The same for a roller that was fed some samples. -/
theorem Holds.batch {r : Roller} {res : ℤ} {xs : List Fed} (h : Holds r res xs) (x : Fed) :
    (r.add (time x) x.2).2 = (lastBucket res xs).elim none fun b =>
      if b = bucket res (time x) ∨ r.acc.toList = [] then none
      else some ⟨res, b, r.acc.toList⟩ := by
  rw [add_batch, h.bucket_eq, h.res_eq]

theorem Holds.writeBatch {r : Roller} {res : ℤ} {xs : List Fed} (h : Holds r res xs) (x : Fed)
    (db : RollupDb) (replace : Bool) (res' : ℤ) (name : String) (b : ℤ) :
    (writeBatch db (r.add (time x) x.2).2 replace).rollup res' name b =
      if res' = res ∧ lastBucket res xs = some b ∧ bucket res (time x) ≠ b then
        combine replace ((aggOf (held res b name xs)).map Agg.row) (db.rollup res' name b)
      else db.rollup res' name b := by
  rw [writeBatch_row, h.bucket_eq, h.res_eq]
  split
  · next hcond => rw [h.acc_of_last hcond.2.1]
  · rfl

/-! ## What a pipeline holds and has written -/

/-- A pipeline that was fed some samples. -/
structure Fills (p : Pipeline) (prev : Option Sample) (xs : List Fed) : Prop where
  m1 : Holds p.m1 res1m xs
  m10 : Holds p.m10 res10m xs
  prev_eq : p.prev = prev

/-- Windows of the latencies and the gateway's log do not change the rows of other names. -/
theorem writeWindow_frame (db : RollupDb) (w : ClosedWindow) (res : ℤ) {name : String} (b : ℤ)
    (hname : name ∉ latencyNames) :
    (writeWindow db w).rollup res name b = db.rollup res name b := by
  unfold writeWindow
  rw [writeRollup_frame]
  · rfl
  · rintro r hr ⟨-, heq, -⟩
    apply hname
    unfold latencyBatch ClosedWindow.points at hr
    dsimp only at hr
    rw [List.map_flatMap, List.mem_flatMap] at hr
    obtain ⟨⟨short, acc⟩, hpair, hr⟩ := hr
    cases hsummary : acc.summary with
    | none => simp [hsummary] at hr
    | some s =>
        simp only [hsummary, List.map_map, List.mem_map, Function.comp_apply] at hr
        obtain ⟨⟨suffix, v⟩, hzip, rfl⟩ := hr
        unfold latencyNames
        rw [List.mem_flatMap]
        refine ⟨short, (List.of_mem_zip hpair).1, ?_⟩
        rw [List.mem_map]
        exact ⟨suffix, (List.of_mem_zip hzip).1, heq.symm⟩

theorem foldl_writeWindow_frame (ws : List ClosedWindow) (db : RollupDb) (res : ℤ)
    {name : String} (b : ℤ) (hname : name ∉ latencyNames) :
    (ws.foldl writeWindow db).rollup res name b = db.rollup res name b := by
  induction ws generalizing db with
  | nil => rfl
  | cons w ws ih => rw [List.foldl_cons, ih, writeWindow_frame _ _ _ _ hname]

theorem gateStep_frame (gate : Option (ℤ × LogDelta)) (db : RollupDb) (s : Sample)
    (replace : Bool) : (gateStep gate db s replace).2.rollup = db.rollup := by
  unfold gateStep
  split
  · rfl
  · dsimp only
    split
    · rfl
    · unfold RollupDb.writeGatelog
      split <;> rfl

/-- One more sample: its bucket is opened, and the row of the bucket before it is written when
that is another one. -/
theorem Fills.push {p : Pipeline} {prev : Option Sample} {xs : List Fed}
    (h : Fills p prev xs) (db : RollupDb) (f : Feed)
    (ordered : Ordered (xs ++ [(f, samplePoints prev f.sample)])) :
    Fills (p.push db f.sample f.hists f.replace).1 (some f.sample)
        (xs ++ [(f, samplePoints prev f.sample)]) ∧
      ∀ res ∈ [res1m, res10m], ∀ name ∉ latencyNames, ∀ b,
        (p.push db f.sample f.hists f.replace).2.rollup res name b =
          if lastBucket res xs = some b ∧ bucket res f.sample.ts ≠ b then
            combine f.replace ((aggOf (held res b name xs)).map Agg.row) (db.rollup res name b)
          else db.rollup res name b := by
  set x : Fed := (f, samplePoints prev f.sample) with hx
  have hm1 := h.m1.add (by decide) ordered
  have hm10 := h.m10.add (by decide) ordered
  have hadd : ∀ r : Roller, r.add f.sample.ts (samplePoints p.prev f.sample) =
      r.add (time x) x.2 := by
    intro r
    rw [h.prev_eq]
    rfl
  refine ⟨⟨?_, ?_, rfl⟩, ?_⟩
  · show Holds (p.m1.add f.sample.ts (samplePoints p.prev f.sample)).1 res1m (xs ++ [x])
    rw [hadd]
    exact hm1
  · show Holds (p.m10.add f.sample.ts (samplePoints p.prev f.sample)).1 res10m (xs ++ [x])
    rw [hadd]
    exact hm10
  · intro res hres name hname b
    unfold Pipeline.push
    dsimp only
    rw [gateStep_frame, foldl_writeWindow_frame _ _ _ _ hname, hadd, hadd,
      h.m10.writeBatch x, h.m1.writeBatch x]
    have hne : res1m ≠ res10m := by decide
    rcases List.mem_pair.1 hres with rfl | rfl
    · rw [if_neg (fun hc => hne hc.1)]
      simp only [true_and]
      rfl
    · rw [if_neg (c := res10m = res1m ∧ _) (fun hc => hne hc.1.symm)]
      simp only [true_and]
      rfl

theorem withPoints_append (prev : Option Sample) (fs gs : List Feed) :
    withPoints prev (fs ++ gs) = withPoints prev fs ++
      withPoints ((fs.getLast?.map Feed.sample).or prev) gs := by
  induction fs generalizing prev with
  | nil => rfl
  | cons f fs ih =>
      rw [List.cons_append, withPoints, withPoints, ih, List.cons_append]
      congr 2
      rw [List.getLast?_cons]
      cases fs.getLast? <;> rfl

theorem time_of_mem_withPoints {prev : Option Sample} {fs : List Feed} {x : Fed}
    (h : x ∈ withPoints prev fs) : x.1 ∈ fs := by
  induction fs generalizing prev with
  | nil => exact absurd h (by simp [withPoints])
  | cons f fs ih =>
      rcases List.mem_cons.1 h with rfl | h
      · exact List.mem_cons_self ..
      · exact List.mem_cons_of_mem _ (ih h)

/-- Feeds in order of time. -/
def InOrder (fs : List Feed) : Prop := fs.Pairwise fun f g => f.sample.ts ≤ g.sample.ts

theorem ordered_withPoints {prev : Option Sample} {fs : List Feed} (h : InOrder fs) :
    Ordered (withPoints prev fs) := by
  induction fs generalizing prev with
  | nil => exact List.Pairwise.nil
  | cons f fs ih =>
      unfold InOrder at h
      rw [List.pairwise_cons] at h
      refine List.Pairwise.cons ?_ (ih h.2)
      intro x hx
      exact h.1 x.1 (time_of_mem_withPoints hx)

theorem pushAll_concat (p : Pipeline) (db : RollupDb) (fs : List Feed) (f : Feed) :
    p.pushAll db (fs ++ [f]) =
      (p.pushAll db fs).1.push (p.pushAll db fs).2 f.sample f.hists f.replace := by
  unfold Pipeline.pushAll
  rw [List.foldl_append]
  rfl

theorem pushAll_append (p : Pipeline) (db : RollupDb) (fs gs : List Feed) :
    p.pushAll db (fs ++ gs) = (p.pushAll db fs).1.pushAll (p.pushAll db fs).2 gs := by
  unfold Pipeline.pushAll
  rw [List.foldl_append]

/-- The row of a bucket after some samples in order of time: what was there before while the
bucket is not closed; then what is made of the points of its samples, written as the sample
that closed it says. -/
def rowAfter (res : ℤ) (name : String) (b : ℤ) (xs : List Fed) (old : Option RollupRow) :
    Option RollupRow :=
  match closer time res b xs with
  | none => old
  | some x => combine x.1.replace ((aggOf (held res b name xs)).map Agg.row) old

theorem combine_none (replace : Bool) (old : Option RollupRow) : combine replace none old = old := by
  unfold combine
  cases replace <;> simp

/-- One more sample, as the row sees it. -/
theorem rowAfter_concat {res : ℤ} (hres : 0 < res) (name : String) (b : ℤ) {xs : List Fed}
    {x : Fed} (ordered : Ordered (xs ++ [x])) (old : Option RollupRow) :
    rowAfter res name b (xs ++ [x]) old =
      if lastBucket res xs = some b ∧ bucket res (time x) ≠ b then
        combine x.1.replace ((aggOf (held res b name xs)).map Agg.row)
          (rowAfter res name b xs old)
      else rowAfter res name b xs old := by
  have hordered : Ordered xs := (List.pairwise_append.1 ordered).1
  have hlater : ∀ y ∈ xs, bucket res (time y) ≤ bucket res (time x) := fun y hy =>
    bucket_mono hres ((List.pairwise_append.1 ordered).2.2 y hy x (by simp))
  unfold rowAfter
  rw [closer_append]
  cases hc : closer time res b xs with
  | some y =>
      -- closed before: nothing more comes into the bucket, and it is not the open one
      have hy : y ∈ xs := List.mem_of_find?_eq_some hc
      have hby : b < bucket res (time y) := by
        have := List.find?_some hc
        simpa using this
      have hx := hlater y hy
      have hkeep : held res b name (xs ++ [x]) = held res b name xs := by
        rw [held_append, held_singleton, if_neg (by omega), List.append_nil]
      rw [Option.some_or, hkeep, if_neg]
      rintro ⟨hlast, -⟩
      unfold lastBucket at hlast
      obtain ⟨l, hl, hbl⟩ := Option.map_eq_some_iff.1 hlast
      have hle := bucket_le_last hres hordered hl y hy
      omega
  | none =>
      rw [closer_eq_none] at hc
      rw [Option.none_or]
      by_cases hcloses : b < bucket res (time x)
      · have hfirst : closer time res b [x] = some x := by
          unfold closer
          simp [hcloses]
        have hkeep : held res b name (xs ++ [x]) = held res b name xs := by
          rw [held_append, held_singleton, if_neg (by omega), List.append_nil]
        rw [hfirst, hkeep]
        dsimp only
        split
        · rfl
        · next hcond =>
            -- the open bucket is an earlier one, so nothing was in this one
            have hempty : held res b name xs = [] := by
              apply held_eq_nil
              intro y hy heq
              apply hcond
              refine ⟨?_, by omega⟩
              unfold lastBucket
              obtain ⟨l, hl⟩ := Option.isSome_iff_exists.1
                (List.getLast?_isSome.2 (List.ne_nil_of_mem hy))
              rw [hl, Option.map_some, Option.some.injEq]
              have hle := bucket_le_last hres hordered hl y hy
              have hge := hc l (List.mem_of_getLast? hl)
              omega
            rw [hempty]
            exact combine_none _ _
      · have hnone : closer time res b [x] = none := by
          unfold closer
          simp only [List.find?_cons, List.find?_nil]
          simp [hcloses]
        rw [hnone, if_neg]
        rintro ⟨hlast, hne⟩
        unfold lastBucket at hlast
        obtain ⟨l, hl, hbl⟩ := Option.map_eq_some_iff.1 hlast
        have hle := hlater l (List.mem_of_getLast? hl)
        omega

/-- What a pipeline holds and has written after samples in order of time. -/
theorem pushAll_rows (db : RollupDb) (fs : List Feed) (inorder : InOrder fs) :
    Fills (({} : Pipeline).pushAll db fs).1 (fs.getLast?.map Feed.sample) (withPoints none fs) ∧
      ∀ res ∈ [res1m, res10m], ∀ name ∉ latencyNames, ∀ b,
        (({} : Pipeline).pushAll db fs).2.rollup res name b =
          rowAfter res name b (withPoints none fs) (db.rollup res name b) := by
  induction fs using List.reverseRecOn with
  | nil => exact ⟨⟨holds_new _, holds_new _, rfl⟩, fun _ _ _ _ _ => rfl⟩
  | append_singleton fs f ih =>
      have hbefore : InOrder fs := (List.pairwise_append.1 inorder).1
      obtain ⟨hfills, hrows⟩ := ih hbefore
      have hpoints : withPoints none (fs ++ [f]) = withPoints none fs ++
          [(f, samplePoints (fs.getLast?.map Feed.sample) f.sample)] := by
        rw [withPoints_append, Option.or_none]
        rfl
      have hordered : Ordered (withPoints none (fs ++ [f])) := ordered_withPoints inorder
      rw [hpoints] at hordered
      obtain ⟨hfills', hrows'⟩ := hfills.push (({} : Pipeline).pushAll db fs).2 f hordered
      rw [pushAll_concat, hpoints, List.getLast?_concat]
      refine ⟨hfills', ?_⟩
      intro res hres name hname b
      have hpos : 0 < res := by
        rcases List.mem_pair.1 hres with rfl | rfl <;> decide
      rw [hrows' res hres name hname b, hrows res hres name hname b,
        rowAfter_concat hpos name b hordered]
      rfl

end Lss.Analysis.RollupRows
