import Mathlib.Data.List.Induction
import Mathlib.Tactic.Ring
import Lss.Library.Entries
import Lss.Model.GateIngest

/-!
# Stretches of the gateway's log

A record counted in full is a small stretch merged in, and merging is associative and
commutative on everything that can be counted. So the stretches of some records merge to what
all the records count to, in whatever pieces and whatever order they came. The users of a
stretch are the exception: after the first sixty-four of a lane no further user is added.
-/

set_option autoImplicit false

namespace Lss.Analysis.LogMerge

open Lss.Model Lss.Library.Entries

/-! ## Counts and sums -/

theorem addCounts_nil (mine : List ℕ) : addCounts mine [] = mine := by
  cases mine with
  | nil => rfl
  | cons m mine => rfl

theorem nil_addCounts (theirs : List ℕ) : addCounts [] theirs = theirs := by
  cases theirs with
  | nil => rfl
  | cons t theirs => rfl

theorem addCounts_comm (xs ys : List ℕ) : addCounts xs ys = addCounts ys xs := by
  induction xs generalizing ys with
  | nil => rw [addCounts_nil, nil_addCounts]
  | cons x xs ih =>
      cases ys with
      | nil => rfl
      | cons y ys =>
          show (x + y) :: addCounts xs ys = (y + x) :: addCounts ys xs
          rw [ih, Nat.add_comm]

theorem addCounts_assoc (xs ys zs : List ℕ) :
    addCounts (addCounts xs ys) zs = addCounts xs (addCounts ys zs) := by
  induction xs generalizing ys zs with
  | nil => rw [nil_addCounts, nil_addCounts]
  | cons x xs ih =>
      cases ys with
      | nil => rw [addCounts_nil, nil_addCounts]
      | cons y ys =>
          cases zs with
          | nil => rfl
          | cons z zs =>
              show (x + y + z) :: addCounts (addCounts xs ys) zs =
                (x + (y + z)) :: addCounts xs (addCounts ys zs)
              rw [ih, Nat.add_assoc]

/-- A row of counts as long as its buckets, or not begun. -/
def Row (edges : List ℚ) (counts : List ℕ) : Prop :=
  counts = [] ∨ counts.length = edges.length + 1

/-- One more in a bucket is a row with one in that bucket added. -/
theorem addCounts_modify (counts : List ℕ) (i : ℕ) :
    addCounts counts ((List.replicate counts.length 0).modify i (· + 1)) =
      counts.modify i (· + 1) := by
  induction counts generalizing i with
  | nil =>
      cases i with
      | zero => rfl
      | succ i => rfl
  | cons c counts ih =>
      cases i with
      | zero =>
          show (c + 1) :: addCounts counts (List.replicate counts.length 0) = (c + 1) :: counts
          have same : addCounts counts (List.replicate counts.length 0) = counts := by
            clear ih
            induction counts with
            | nil => rfl
            | cons d counts ih => exact congrArg (d :: ·) ih
          rw [same]
      | succ i => exact congrArg (c :: ·) (ih i)

theorem bucketAdd_of_length {counts : List ℕ} {edges : List ℚ} (v : ℚ)
    (h : counts.length = edges.length + 1) :
    bucketAdd counts edges v =
      counts.modify ((edges.findIdx? fun e => v ≤ e).getD edges.length) (· + 1) := by
  unfold bucketAdd
  rw [if_pos h]

theorem bucketAdd_nil (edges : List ℚ) (v : ℚ) :
    bucketAdd [] edges v = (List.replicate (edges.length + 1) 0).modify
      ((edges.findIdx? fun e => v ≤ e).getD edges.length) (· + 1) := by
  unfold bucketAdd
  rw [if_neg (by simp)]
  simp

theorem row_bucketAdd {counts : List ℕ} {edges : List ℚ} (h : Row edges counts) (v : ℚ) :
    Row edges (bucketAdd counts edges v) := by
  right
  rcases h with rfl | h
  · rw [bucketAdd_nil, List.length_modify, List.length_replicate]
  · rw [bucketAdd_of_length v h, List.length_modify, h]

theorem addCounts_bucketAdd {counts : List ℕ} {edges : List ℚ} (h : Row edges counts) (v : ℚ) :
    addCounts counts (bucketAdd [] edges v) = bucketAdd counts edges v := by
  rcases h with rfl | h
  · rw [nil_addCounts]
  · rw [bucketAdd_of_length v h, bucketAdd_nil, ← h, addCounts_modify]

/-! ## Durations, tokens and users -/

theorem TimeAgg.merge_assoc (t u v : TimeAgg) : (t.merge u).merge v = t.merge (u.merge v) := by
  simp only [TimeAgg.merge, add_assoc, max_assoc, TimeAgg.mk.injEq, true_and, and_true]
  apply Vector.ext
  intro i hi
  simp only [Vector.getElem_zipWith, Nat.add_assoc]

theorem TimeAgg.merge_comm (t u : TimeAgg) : t.merge u = u.merge t := by
  simp only [TimeAgg.merge, TimeAgg.mk.injEq]
  refine ⟨Nat.add_comm _ _, add_comm _ _, max_comm _ _, ?_, Nat.add_comm _ _⟩
  apply Vector.ext
  intro i hi
  simp only [Vector.getElem_zipWith, Nat.add_comm]

theorem TimeAgg.default_merge {t : TimeAgg} (h : 0 ≤ t.maxMs) : (default : TimeAgg).merge t = t := by
  show TimeAgg.mk (0 + t.n) (0 + t.sumMs) (max 0 t.maxMs)
    ((Vector.replicate 8 0).zipWith (· + ·) t.le) (0 + t.leN) = t
  have le : (Vector.replicate 8 0).zipWith (· + ·) t.le = t.le := by
    apply Vector.ext
    intro i hi
    simp
  rw [le, Nat.zero_add, zero_add, max_eq_right h, Nat.zero_add]

theorem TimeAgg.add_eq_merge {t : TimeAgg} (h : 0 ≤ t.maxMs) (ms : ℚ) :
    t.merge ((default : TimeAgg).add ms) = t.add ms := by
  have le : t.le.zipWith (· + ·) ((default : TimeAgg).add ms).le = (t.add ms).le := by
    unfold TimeAgg.add
    cases timeEdge ms with
    | none =>
        apply Vector.ext
        intro i hi
        show (t.le.zipWith (· + ·) (Vector.replicate 8 0))[i] = t.le[i]
        simp
    | some e =>
        apply Vector.ext
        intro i hi
        show (t.le.zipWith (· + ·) ((Vector.replicate 8 0).set e _))[i] = (t.le.set e _)[i]
        rw [Vector.getElem_zipWith, Vector.getElem_set, Vector.getElem_set]
        by_cases he : e.val = i
        · subst he
          rw [if_pos rfl, if_pos rfl]
          show t.le[e.val] + ((Vector.replicate 8 0)[e.val] + 1) = t.le[e.val] + 1
          simp
        · rw [if_neg he, if_neg he]
          simp
  show TimeAgg.mk _ _ _ (t.le.zipWith (· + ·) ((default : TimeAgg).add ms).le) _ = t.add ms
  rw [le]
  show TimeAgg.mk (t.n + (0 + 1)) (t.sumMs + (0 + ms)) (max t.maxMs (max 0 ms)) _ (t.leN + (0 + 1))
    = t.add ms
  rw [← max_assoc, max_eq_left h]
  simp only [zero_add]
  rfl

theorem TimeAgg.maxMs_add {t : TimeAgg} (h : 0 ≤ t.maxMs) (ms : ℚ) : 0 ≤ (t.add ms).maxMs :=
  le_max_of_le_left h

theorem EstTokens.merge_assoc (t u v : EstTokens) : (t.merge u).merge v = t.merge (u.merge v) := by
  simp only [EstTokens.merge, add_assoc, max_assoc]

theorem EstTokens.merge_comm (t u : EstTokens) : t.merge u = u.merge t := by
  simp only [EstTokens.merge, EstTokens.mk.injEq]
  exact ⟨Nat.add_comm _ _, add_comm _ _, max_comm _ _⟩

theorem EstTokens.default_merge {t : EstTokens} (h : 0 ≤ t.max) :
    (default : EstTokens).merge t = t := by
  show EstTokens.mk (0 + t.n) (0 + t.sum) (Max.max 0 t.max) = t
  rw [Nat.zero_add, zero_add, max_eq_right h]

theorem EstTokens.add_eq_merge {t : EstTokens} (h : 0 ≤ t.max) (v : ℚ) :
    t.merge ((default : EstTokens).add v) = t.add v := by
  show EstTokens.mk (t.n + (0 + 1)) (t.sum + (0 + v)) (Max.max t.max (Max.max 0 v)) = t.add v
  rw [← max_assoc, max_eq_left h]
  simp only [zero_add]
  rfl

theorem EstTokens.max_add {t : EstTokens} (h : 0 ≤ t.max) (v : ℚ) : 0 ≤ (t.add v).max :=
  le_max_of_le_left h

theorem UserExp.merge_assoc (t u v : UserExp) : (t.merge u).merge v = t.merge (u.merge v) := by
  simp only [UserExp.merge, add_assoc, addCounts_assoc]

theorem UserExp.merge_comm (t u : UserExp) : t.merge u = u.merge t := by
  simp only [UserExp.merge, UserExp.mk.injEq]
  exact ⟨Nat.add_comm _ _, addCounts_comm _ _, Nat.add_comm _ _, add_comm _ _, add_comm _ _,
    addCounts_comm _ _⟩

theorem UserExp.default_merge (u : UserExp) : (default : UserExp).merge u = u := by
  show UserExp.mk (0 + u.n) (addCounts [] u.ttfb) (0 + u.speedN) (0 + u.tokens) (0 + u.writeSecs)
    (addCounts [] u.speed) = u
  rw [nil_addCounts, nil_addCounts, Nat.zero_add, Nat.zero_add, zero_add, zero_add]

/-- Both rows of a user are begun as a whole. -/
structure Rows (u : UserExp) : Prop where
  ttfb : Row expTtfbMs u.ttfb
  speed : Row expTokS u.speed

theorem rows_default : Rows default := ⟨Or.inl rfl, Or.inl rfl⟩

theorem rows_add {u : UserExp} (h : Rows u) (ttfb : ℚ) (dur tokens : Option ℚ) :
    Rows (u.add ttfb dur tokens) := by
  have ht := row_bucketAdd h.ttfb ttfb
  unfold UserExp.add
  cases dur with
  | none => exact ⟨ht, h.speed⟩
  | some dur =>
      cases tokens with
      | none => exact ⟨ht, h.speed⟩
      | some tokens =>
          dsimp only
          split
          · exact ⟨ht, row_bucketAdd h.speed _⟩
          · exact ⟨ht, h.speed⟩

theorem UserExp.add_eq_merge {u : UserExp} (h : Rows u) (ttfb : ℚ) (dur tokens : Option ℚ) :
    u.merge ((default : UserExp).add ttfb dur tokens) = u.add ttfb dur tokens := by
  have ht := addCounts_bucketAdd h.ttfb ttfb
  -- a request whose writing is not counted
  have plain : u.merge { (default : UserExp) with n := 0 + 1, ttfb := bucketAdd [] expTtfbMs ttfb } =
      { u with n := u.n + 1, ttfb := bucketAdd u.ttfb expTtfbMs ttfb } := by
    show UserExp.mk (u.n + (0 + 1)) (addCounts u.ttfb (bucketAdd [] expTtfbMs ttfb)) (u.speedN + 0)
      (u.tokens + 0) (u.writeSecs + 0) (addCounts u.speed []) = _
    rw [ht, addCounts_nil]
    simp only [zero_add, add_zero]
  unfold UserExp.add
  cases dur with
  | none => exact plain
  | some dur =>
      cases tokens with
      | none => exact plain
      | some tokens =>
          dsimp only
          split
          · rename_i hw
            show UserExp.mk (u.n + (0 + 1)) (addCounts u.ttfb (bucketAdd [] expTtfbMs ttfb))
              (u.speedN + (0 + 1)) (u.tokens + (0 + tokens))
              (u.writeSecs + (0 + (dur - ttfb) / 1000))
              (addCounts u.speed (bucketAdd [] expTokS (tokens / ((dur - ttfb) / 1000)))) = _
            rw [ht, addCounts_bucketAdd h.speed]
            simp only [zero_add]
          · exact plain

/-! ## One lane -/

/-- The users with one more answered request, however many there are. -/
def tallyUser (users : Std.ExtTreeMap String UserExp) (r : AuditRecord) :
    Std.ExtTreeMap String UserExp :=
  match r.experience with
  | some (who, ttfb) => addEntry users who fun u => u.add ttfb r.durMs r.completionTokens
  | none => users

/-- A lane with one more record, counted in full. -/
def tallyLane (l : LaneLog) (r : AuditRecord) : LaneLog :=
  { l.add r with byUser := if r.method = "POST" then tallyUser l.byUser r else l.byUser }

/-- A lane whose maxima are not negative. -/
structure Unsigned (l : LaneLog) : Prop where
  est : 0 ≤ l.est.max
  byKeyEst : Each (fun e : EstTokens => 0 ≤ e.max) l.byKeyEst
  ttfbBySize : Each (fun t : TimeAgg => 0 ≤ t.maxMs) l.ttfbBySize
  promptMax : 0 ≤ l.promptMax

/-- A lane as records make it: its maxima are not negative and its rows of counts are whole. -/
structure Plain (l : LaneLog) : Prop where
  est : 0 ≤ l.est.max
  byKeyEst : Each (fun e : EstTokens => 0 ≤ e.max) l.byKeyEst
  ttfbBySize : Each (fun t : TimeAgg => 0 ≤ t.maxMs) l.ttfbBySize
  promptMax : 0 ≤ l.promptMax
  byUser : Each Rows l.byUser

theorem Plain.unsigned {l : LaneLog} (h : Plain l) : Unsigned l :=
  ⟨h.est, h.byKeyEst, h.ttfbBySize, h.promptMax⟩

theorem plain_empty : Plain {} where
  est := le_rfl
  byKeyEst := each_empty
  ttfbBySize := each_empty
  promptMax := le_rfl
  byUser := each_empty

theorem each_tallyUser {users : Std.ExtTreeMap String UserExp} (h : Each Rows users)
    (r : AuditRecord) : Each Rows (tallyUser users r) := by
  unfold tallyUser
  cases r.experience with
  | none => exact h
  | some e => exact h.change rows_default fun _ hu => rows_add hu _ _ _

theorem unsigned_add {l : LaneLog} (h : Unsigned l) (r : AuditRecord) : Unsigned (l.add r) := by
  by_cases hm : r.method = "POST"
  · unfold LaneLog.add
    rw [if_neg (not_not.mpr hm)]
    refine ⟨?_, ?_, ?_, ?_⟩
    · dsimp only
      cases AuditRecord.counted r.estimatedTokens with
      | none => exact h.est
      | some v => exact EstTokens.max_add h.est v
    · dsimp only
      cases AuditRecord.counted r.estimatedTokens with
      | none => exact h.byKeyEst
      | some v => exact h.byKeyEst.change le_rfl fun _ he => EstTokens.max_add he v
    · dsimp only
      split
      · exact h.ttfbBySize.change le_rfl fun _ ht => TimeAgg.maxMs_add ht _
      · exact h.ttfbBySize
    · dsimp only
      split
      · exact le_max_of_le_left h.promptMax
      · exact h.promptMax
  · unfold LaneLog.add
    rw [if_pos hm]
    exact ⟨h.est, h.byKeyEst, h.ttfbBySize, h.promptMax⟩

theorem unsigned_merge {l o : LaneLog} (hl : Unsigned l) (ho : Unsigned o) :
    Unsigned (l.merge o) where
  est := le_max_of_le_left hl.est
  byKeyEst := hl.byKeyEst.mergeInto ho.byKeyEst le_rfl fun _ _ hv _ => le_max_of_le_left hv
  ttfbBySize := hl.ttfbBySize.mergeInto ho.ttfbBySize le_rfl fun _ _ hv _ => le_max_of_le_left hv
  promptMax := le_max_of_le_left hl.promptMax

theorem plain_tallyLane {l : LaneLog} (h : Plain l) (r : AuditRecord) : Plain (tallyLane l r) := by
  have added := unsigned_add h.unsigned r
  refine ⟨added.est, added.byKeyEst, added.ttfbBySize, added.promptMax, ?_⟩
  show Each Rows (if r.method = "POST" then tallyUser l.byUser r else l.byUser)
  split
  · exact each_tallyUser h.byUser r
  · exact h.byUser

theorem neutral_est : ∀ {m : Std.ExtTreeMap String EstTokens},
    Each (fun e : EstTokens => 0 ≤ e.max) m → Each (fun e => EstTokens.merge default e = e) m :=
  fun h k v hv => EstTokens.default_merge (h k v hv)

theorem neutral_ttfb {m : Std.ExtTreeMap String TimeAgg}
    (h : Each (fun t : TimeAgg => 0 ≤ t.maxMs) m) : Each (fun t => TimeAgg.merge default t = t) m :=
  fun k v hv => TimeAgg.default_merge (h k v hv)

theorem neutral_count {κ : Type} [Ord κ] [Std.TransOrd κ] (m : Std.ExtTreeMap κ ℕ) :
    Each (fun n => default + n = n) m :=
  fun _ _ _ => Nat.zero_add _

theorem neutral_counts {κ : Type} [Ord κ] [Std.TransOrd κ]
    (m : Std.ExtTreeMap κ (Std.ExtTreeMap ℕ ℕ)) :
    Each (fun codes => mergeInto (· + ·) default codes = codes) m :=
  fun _ _ _ => empty_mergeInto (neutral_count _)

theorem neutral_user (m : Std.ExtTreeMap String UserExp) :
    Each (fun u => UserExp.merge default u = u) m :=
  fun _ _ _ => UserExp.default_merge _

theorem merge_assoc {o : LaneLog} (ho : Unsigned o) (l m : LaneLog) :
    (l.merge m).merge o = l.merge (m.merge o) := by
  have counts : ∀ codes₁ codes₂ codes₃ : Std.ExtTreeMap ℕ ℕ,
      mergeInto (· + ·) (mergeInto (· + ·) codes₁ codes₂) codes₃ =
        mergeInto (· + ·) codes₁ (mergeInto (· + ·) codes₂ codes₃) :=
    fun codes₁ codes₂ codes₃ => mergeInto_assoc Nat.add_assoc (neutral_count codes₃) codes₁ codes₂
  simp only [LaneLog.merge, LaneLog.mk.injEq]
  refine ⟨Nat.add_assoc _ _ _, Nat.add_assoc _ _ _, ?_, ?_, ?_, ?_, EstTokens.merge_assoc _ _ _, ?_,
    ?_, ?_, add_assoc _ _ _, add_assoc _ _ _, max_assoc _ _ _, ?_⟩
  · exact counts _ _ _
  · exact mergeInto_assoc Nat.add_assoc (neutral_count _) _ _
  · exact mergeInto_assoc Nat.add_assoc (neutral_count _) _ _
  · exact mergeInto_assoc counts (neutral_counts _) _ _
  · exact mergeInto_assoc EstTokens.merge_assoc (neutral_est ho.byKeyEst) _ _
  · exact mergeInto_assoc Nat.add_assoc (neutral_count _) _ _
  · exact mergeInto_assoc TimeAgg.merge_assoc (neutral_ttfb ho.ttfbBySize) _ _
  · exact mergeInto_assoc UserExp.merge_assoc (neutral_user _) _ _

theorem merge_comm {l o : LaneLog} (hl : Unsigned l) (ho : Unsigned o) : l.merge o = o.merge l := by
  have counts : ∀ codes₁ codes₂ : Std.ExtTreeMap ℕ ℕ,
      mergeInto (· + ·) codes₁ codes₂ = mergeInto (· + ·) codes₂ codes₁ :=
    fun codes₁ codes₂ => mergeInto_comm Nat.add_comm (neutral_count codes₁) (neutral_count codes₂)
  simp only [LaneLog.merge, LaneLog.mk.injEq]
  refine ⟨Nat.add_comm _ _, Nat.add_comm _ _, ?_, ?_, ?_, ?_, EstTokens.merge_comm _ _, ?_, ?_, ?_,
    add_comm _ _, add_comm _ _, max_comm _ _, ?_⟩
  · exact counts _ _
  · exact mergeInto_comm Nat.add_comm (neutral_count _) (neutral_count _)
  · exact mergeInto_comm Nat.add_comm (neutral_count _) (neutral_count _)
  · exact mergeInto_comm counts (neutral_counts _) (neutral_counts _)
  · exact mergeInto_comm EstTokens.merge_comm (neutral_est hl.byKeyEst) (neutral_est ho.byKeyEst)
  · exact mergeInto_comm Nat.add_comm (neutral_count _) (neutral_count _)
  · exact mergeInto_comm TimeAgg.merge_comm (neutral_ttfb hl.ttfbBySize)
      (neutral_ttfb ho.ttfbBySize)
  · exact mergeInto_comm UserExp.merge_comm (neutral_user _) (neutral_user _)

theorem empty_merge {l : LaneLog} (h : Unsigned l) : ({} : LaneLog).merge l = l := by
  simp only [LaneLog.merge, zero_add, max_eq_right h.promptMax]
  have est : EstTokens.merge {} l.est = l.est := EstTokens.default_merge h.est
  have byStatus : mergeEntries (· + ·) ∅ l.byStatus = l.byStatus :=
    empty_mergeInto (neutral_count _)
  have byVerdict : mergeEntries (· + ·) ∅ l.byVerdict = l.byVerdict :=
    empty_mergeInto (neutral_count _)
  have byKey : mergeEntries (· + ·) ∅ l.byKey = l.byKey := empty_mergeInto (neutral_count _)
  have byKeyStatus : mergeEntries (mergeEntries (· + ·)) ∅ l.byKeyStatus = l.byKeyStatus :=
    empty_mergeInto (neutral_counts _)
  have byKeyEst : mergeEntries EstTokens.merge ∅ l.byKeyEst = l.byKeyEst :=
    empty_mergeInto (neutral_est h.byKeyEst)
  have byIp : mergeEntries (· + ·) ∅ l.byIp = l.byIp := empty_mergeInto (neutral_count _)
  have ttfbBySize : mergeEntries TimeAgg.merge ∅ l.ttfbBySize = l.ttfbBySize :=
    empty_mergeInto (neutral_ttfb h.ttfbBySize)
  have byUser : mergeEntries UserExp.merge ∅ l.byUser = l.byUser :=
    empty_mergeInto (neutral_user _)
  rw [est, byStatus, byVerdict, byKey, byKeyStatus, byKeyEst, byIp, ttfbBySize, byUser]

theorem merge_empty {l : LaneLog} (h : Unsigned l) : l.merge {} = l := by
  rw [merge_comm h plain_empty.unsigned, empty_merge h]

/-- Changing an entry is merging in what the change makes of nothing. -/
theorem addEntry_eq_merge {κ β : Type} [Ord κ] [Std.TransOrd κ] [Std.LawfulEqOrd κ] [Inhabited β]
    {f : β → β → β} {m : Std.ExtTreeMap κ β} {k : κ} {add : β → β}
    (h : f (m[k]?.getD default) (add default) = add (m[k]?.getD default)) :
    mergeEntries f m (addEntry ∅ k add) = addEntry m k add :=
  (change_eq_mergeInto h).symm

/-- One more of a counter is a map with one of it added. -/
theorem count_eq_merge {κ : Type} [Ord κ] [Std.TransOrd κ] [Std.LawfulEqOrd κ]
    (m : Std.ExtTreeMap κ ℕ) (k : κ) :
    mergeEntries (· + ·) m (addEntry ∅ k (· + 1)) = addEntry m k (· + 1) := by
  apply addEntry_eq_merge
  show m[k]?.getD default + (0 + 1) = m[k]?.getD default + 1
  rw [Nat.zero_add]

theorem tallyUser_eq_merge {users : Std.ExtTreeMap String UserExp} (h : Each Rows users)
    (r : AuditRecord) :
    mergeEntries UserExp.merge users (tallyUser ∅ r) = tallyUser users r := by
  unfold tallyUser
  cases r.experience with
  | none => exact mergeInto_empty _ _
  | some e =>
      apply addEntry_eq_merge
      exact UserExp.add_eq_merge (h.getD rows_default e.1) _ _ _

/-- A record counted in full is a lane of one record merged in. -/
theorem tallyLane_eq_merge {l : LaneLog} (h : Plain l) (r : AuditRecord) :
    l.merge (tallyLane {} r) = tallyLane l r := by
  by_cases hm : r.method = "POST"
  · unfold tallyLane LaneLog.add
    rw [if_neg (not_not.mpr hm), if_neg (not_not.mpr hm), if_pos hm, if_pos hm]
    simp only [LaneLog.merge, LaneLog.mk.injEq, zero_add, add_zero, true_and]
    refine ⟨count_eq_merge _ _, count_eq_merge _ _, count_eq_merge _ _, ?_, ?_, ?_, ?_, ?_, ?_, ?_,
      ?_, tallyUser_eq_merge h.byUser r⟩
    · exact addEntry_eq_merge (count_eq_merge _ _)
    · cases AuditRecord.counted r.estimatedTokens with
      | none =>
          rw [EstTokens.merge_comm]
          exact EstTokens.default_merge h.est
      | some v => exact EstTokens.add_eq_merge h.est v
    · cases AuditRecord.counted r.estimatedTokens with
      | none => exact mergeInto_empty _ _
      | some v =>
          apply addEntry_eq_merge
          exact EstTokens.add_eq_merge (h.byKeyEst.getD le_rfl _) v
    · cases r.ip with
      | none => exact mergeInto_empty _ _
      | some ip => exact count_eq_merge _ _
    · split
      · apply addEntry_eq_merge
        exact TimeAgg.add_eq_merge (h.ttfbBySize.getD le_rfl _) _
      · exact mergeInto_empty _ _
    · split
      · rfl
      · exact add_zero _
    · split
      · split
        · rfl
        · exact add_zero _
      · exact add_zero _
    · split
      · rw [← max_assoc, max_eq_left h.promptMax]
      · exact max_eq_left h.promptMax
  · -- another kind of request changes one count only
    have merged := merge_empty h.unsigned
    unfold tallyLane LaneLog.add
    rw [if_pos hm, if_pos hm, if_neg hm, if_neg hm]
    show { l.merge {} with other := l.other + (0 + 1) } = { l with other := l.other + 1 }
    rw [merged, Nat.zero_add]

/-! ## The records of a lane -/

/-- What some records of a lane count to in full. -/
def total (rs : List AuditRecord) : LaneLog := rs.foldl tallyLane {}

theorem plain_foldl {l : LaneLog} (h : Plain l) (rs : List AuditRecord) :
    Plain (rs.foldl tallyLane l) := by
  induction rs generalizing l with
  | nil => exact h
  | cons r rs ih => exact ih (plain_tallyLane h r)

theorem plain_total (rs : List AuditRecord) : Plain (total rs) := plain_foldl plain_empty rs

/-- Two stretches merge to what their records count to together. -/
theorem merge_total (xs ys : List AuditRecord) :
    (total xs).merge (total ys) = total (xs ++ ys) := by
  induction ys using List.reverseRecOn with
  | nil =>
      rw [List.append_nil]
      exact merge_empty (plain_total xs).unsigned
  | append_singleton ys r ih =>
      have last : ∀ zs, total (zs ++ [r]) = tallyLane (total zs) r := fun zs =>
        List.foldl_append
      rw [← List.append_assoc, last, last, ← tallyLane_eq_merge (plain_total ys),
        ← merge_assoc (plain_tallyLane plain_empty r).unsigned, ih, tallyLane_eq_merge (plain_total _)]

/-- The order of the records does not matter. -/
theorem total_perm {xs ys : List AuditRecord} (h : xs.Perm ys) : total xs = total ys := by
  induction h with
  | nil => rfl
  | cons r h ih =>
      rename_i xs ys
      show total ([r] ++ xs) = total ([r] ++ ys)
      rw [← merge_total, ← merge_total, ih]
  | swap r s rs =>
      show total ([s] ++ [r] ++ rs) = total ([r] ++ [s] ++ rs)
      rw [← merge_total, ← merge_total [s],
        merge_comm (plain_total [s]).unsigned (plain_total [r]).unsigned,
        merge_total, merge_total]
  | trans h₁ h₂ ih₁ ih₂ => exact ih₁.trans ih₂

/-- The users of some records of a lane, as often as they were answered. -/
def usersOf (rs : List AuditRecord) : List String :=
  rs.filterMap fun r => if r.method = "POST" then r.experience.map Prod.fst else none

theorem mem_tallyLane_byUser {l : LaneLog} {r : AuditRecord} {k : String} :
    k ∈ (tallyLane l r).byUser ↔ k ∈ l.byUser ∨ k ∈ usersOf [r] := by
  show k ∈ (if r.method = "POST" then tallyUser l.byUser r else l.byUser) ↔ _
  unfold usersOf
  by_cases hm : r.method = "POST"
  · rw [if_pos hm]
    unfold tallyUser
    cases he : r.experience with
    | none => simp [he]
    | some e =>
        rw [List.filterMap_cons, if_pos hm, he]
        show k ∈ change l.byUser e.1 (fun u => u.add e.2 r.durMs r.completionTokens) ↔
          k ∈ l.byUser ∨ k ∈ [e.1]
        rw [mem_change, List.mem_singleton, or_comm, eq_comm]
  · rw [if_neg hm, List.filterMap_cons, if_neg hm]
    simp

/-- A lane counted in full has an entry for each of its users and no other. -/
theorem mem_total_byUser {rs : List AuditRecord} {k : String} :
    k ∈ (total rs).byUser ↔ k ∈ usersOf rs := by
  induction rs using List.reverseRecOn with
  | nil => exact ⟨fun h => absurd h Std.ExtTreeMap.not_mem_empty, fun h => absurd h List.not_mem_nil⟩
  | append_singleton rs r ih =>
      have last : total (rs ++ [r]) = tallyLane (total rs) r := List.foldl_append
      have split : usersOf (rs ++ [r]) = usersOf rs ++ usersOf [r] := List.filterMap_append
      rw [last, mem_tallyLane_byUser, ih, split, List.mem_append]

/-! ## The users that are kept -/

/-- A lane as the code counts it beside the lane counted in full: it lacks users at most, and
none while it has room. -/
structure Kept (l full : LaneLog) : Prop where
  counts : full = { l with byUser := full.byUser }
  users : l.byUser = full.byUser ∨
    expMaxUsers ≤ l.byUser.size ∧ ∀ k ∈ l.byUser, l.byUser[k]? = full.byUser[k]?

/-- The users after a record, as the code keeps them. -/
def keepUser (users : Std.ExtTreeMap String UserExp) (r : AuditRecord) :
    Std.ExtTreeMap String UserExp :=
  match r.experience with
  | some (who, _) =>
    if users.size < expMaxUsers ∨ who ∈ users then tallyUser users r else users
  | none => users

theorem add_byUser (l : LaneLog) (r : AuditRecord) :
    (l.add r).byUser = if r.method = "POST" then keepUser l.byUser r else l.byUser := by
  unfold LaneLog.add
  by_cases hm : r.method = "POST"
  · rw [if_neg (not_not.mpr hm), if_pos hm]
    unfold keepUser tallyUser
    cases r.experience with
    | none => rfl
    | some e => rfl
  · rw [if_pos hm, if_neg hm]

theorem size_keepUser {users : Std.ExtTreeMap String UserExp} (h : users.size ≤ expMaxUsers)
    (r : AuditRecord) : (keepUser users r).size ≤ expMaxUsers := by
  unfold keepUser tallyUser
  cases r.experience with
  | none => exact h
  | some e =>
      dsimp only
      generalize (fun u : UserExp => u.add e.2 r.durMs r.completionTokens) = add
      show (if users.size < expMaxUsers ∨ e.1 ∈ users then change users e.1 add
        else users).size ≤ expMaxUsers
      by_cases hk : e.1 ∈ users
      · rw [if_pos (Or.inr hk), size_change_of_mem hk]
        exact h
      · by_cases hs : users.size < expMaxUsers
        · rw [if_pos (Or.inl hs), size_change_of_not_mem hk]
          exact hs
        · rw [if_neg (not_or.mpr ⟨hs, hk⟩)]
          exact h

/-- No stretch keeps more users than it has room for. -/
theorem size_foldl_add (rs : List AuditRecord) :
    (rs.foldl LaneLog.add {}).byUser.size ≤ expMaxUsers := by
  induction rs using List.reverseRecOn with
  | nil => exact Nat.zero_le _
  | append_singleton rs r ih =>
      rw [List.foldl_append, List.foldl_cons, List.foldl_nil, add_byUser]
      split
      · exact size_keepUser ih r
      · exact ih

/-- What a record adds beside the users does not depend on them. -/
theorem tallyLane_with (l : LaneLog) (r : AuditRecord) (users : Std.ExtTreeMap String UserExp) :
    tallyLane { l with byUser := users } r =
      { l.add r with byUser := if r.method = "POST" then tallyUser users r else users } := by
  unfold tallyLane LaneLog.add
  by_cases hm : r.method = "POST"
  · rw [if_neg (not_not.mpr hm), if_neg (not_not.mpr hm)]
  · rw [if_pos hm, if_pos hm]

theorem kept_keepUser {users full : Std.ExtTreeMap String UserExp} (r : AuditRecord)
    (h : users = full ∨ expMaxUsers ≤ users.size ∧ ∀ k ∈ users, users[k]? = full[k]?) :
    keepUser users r = tallyUser full r ∨
      expMaxUsers ≤ (keepUser users r).size ∧
        ∀ k ∈ keepUser users r, (keepUser users r)[k]? = (tallyUser full r)[k]? := by
  unfold keepUser tallyUser
  cases he : r.experience with
  | none => exact h
  | some e =>
      dsimp only
      generalize hadd : (fun u : UserExp => u.add e.2 r.durMs r.completionTokens) = add
      by_cases hk : users.size < expMaxUsers ∨ e.1 ∈ users
      · rw [if_pos hk]
        rcases h with rfl | ⟨size, same⟩
        · exact Or.inl rfl
        · -- the user has an entry in both
          have hin : e.1 ∈ users := hk.resolve_left (Nat.not_lt.mpr size)
          right
          show expMaxUsers ≤ (change users e.1 add).size ∧
            ∀ k ∈ change users e.1 add, (change users e.1 add)[k]? = (change full e.1 add)[k]?
          rw [size_change_of_mem hin]
          refine ⟨size, ?_⟩
          intro k hmem
          by_cases hek : e.1 = k
          · subst hek
            rw [getElem?_change_self, getElem?_change_self, same _ hin]
          · rw [getElem?_change_of_ne _ _ hek, getElem?_change_of_ne _ _ hek]
            exact same k ((mem_change.mp hmem).resolve_left hek)
      · rw [if_neg hk]
        have size : expMaxUsers ≤ users.size := Nat.le_of_not_lt fun h => hk (Or.inl h)
        have hout : e.1 ∉ users := fun h => hk (Or.inr h)
        right
        refine ⟨size, ?_⟩
        intro k hmem
        have hek : e.1 ≠ k := fun h => hout (h ▸ hmem)
        show users[k]? = (change full e.1 add)[k]?
        rw [getElem?_change_of_ne _ _ hek]
        rcases h with rfl | ⟨_, same⟩
        · rfl
        · exact same k hmem

theorem kept_add {l full : LaneLog} (h : Kept l full) (r : AuditRecord) :
    Kept (l.add r) (tallyLane full r) := by
  have tallied : tallyLane full r = { l.add r with
      byUser := if r.method = "POST" then tallyUser full.byUser r else full.byUser } := by
    rw [h.counts]
    exact tallyLane_with l r _
  refine ⟨?_, ?_⟩
  · rw [tallied]
  · rw [tallied, add_byUser]
    by_cases hm : r.method = "POST"
    · rw [if_pos hm]
      dsimp only
      rw [if_pos hm]
      exact kept_keepUser r h.users
    · rw [if_neg hm]
      dsimp only
      rw [if_neg hm]
      exact h.users

theorem kept_total (rs : List AuditRecord) : Kept (rs.foldl LaneLog.add {}) (total rs) := by
  induction rs using List.reverseRecOn with
  | nil => exact ⟨rfl, Or.inl rfl⟩
  | append_singleton rs r ih =>
      have last : total (rs ++ [r]) = tallyLane (total rs) r := List.foldl_append
      have last' : (rs ++ [r]).foldl LaneLog.add {} = (rs.foldl LaneLog.add {}).add r :=
        List.foldl_append
      rw [last, last']
      exact kept_add ih r

/-- Nobody is left out of a lane of few users. -/
theorem foldl_add_of_few {rs : List AuditRecord} (few : (usersOf rs).dedup.length ≤ expMaxUsers) :
    rs.foldl LaneLog.add {} = total rs := by
  obtain ⟨counts, users⟩ := kept_total rs
  rw [counts]
  rcases users with users | ⟨size, same⟩
  · rw [← users]
  · -- as many users as there are in all
    generalize rs.foldl LaneLog.add {} = l at size same ⊢
    have sub : l.byUser.keys ⊆ (total rs).byUser.keys := by
      intro k hk
      have hkl := Std.ExtTreeMap.mem_keys.mp hk
      rw [Std.ExtTreeMap.mem_keys, Std.ExtTreeMap.mem_iff_isSome_getElem?, ← same k hkl,
        ← Std.ExtTreeMap.mem_iff_isSome_getElem?]
      exact hkl
    have all : (total rs).byUser.size ≤ l.byUser.size :=
      ((size_le_of_keys fun k hk => mem_total_byUser.mp hk).trans few).trans size
    have keys : l.byUser.keys.Perm (total rs).byUser.keys := by
      apply (List.subperm_of_subset Std.ExtTreeMap.nodup_keys sub).perm_of_length_le
      rw [Std.ExtTreeMap.length_keys, Std.ExtTreeMap.length_keys]
      exact all
    have users : l.byUser = (total rs).byUser := by
      apply Std.ExtTreeMap.ext_getElem?
      intro k
      by_cases hk : k ∈ l.byUser
      · exact same k hk
      · have hk' : k ∉ (total rs).byUser := by
          rw [← Std.ExtTreeMap.mem_keys, ← keys.mem_iff, Std.ExtTreeMap.mem_keys]
          exact hk
        rw [Std.ExtTreeMap.getElem?_eq_none hk, Std.ExtTreeMap.getElem?_eq_none hk']
    rw [← users]

end Lss.Analysis.LogMerge
