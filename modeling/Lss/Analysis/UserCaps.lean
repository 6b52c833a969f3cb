import Lss.Analysis.GatePolls
import Lss.Analysis.GatewayReads

/-!
# The users of ten minutes

Counting a record keeps the users of a stretch within their cap, merging two stretches does not:
the ten minutes that are stored hold every user that any of their polls holds. So the cap holds in
every state of the pipeline exactly when the polls of no ten minutes name too many users between
them.
-/

set_option autoImplicit false

namespace Lss.Analysis.UserCaps

open Lss.Model Lss.Library.Entries Lss.Library.Buckets
open Lss.Analysis.LogMerge Lss.Analysis.GatePolls Lss.Analysis.GatewayReads

/-! ## The users of merged stretches -/

/-- A lane of a stretch: merging goes lane by lane. -/
structure Lane (lane : LogDelta → LaneLog) : Prop where
  empty : lane {} = {}
  merge : ∀ d e, lane (d.merge e) = (lane d).merge (lane e)

theorem lane_public : Lane LogDelta.publicLane := ⟨rfl, fun _ _ => rfl⟩

theorem lane_trusted : Lane LogDelta.trustedLane := ⟨rfl, fun _ _ => rfl⟩

/-- Who is named on a lane by some polls, as often as a poll names them. -/
def namesOf (lane : LogDelta → LaneLog) (polls : List Sample) : List String :=
  polls.flatMap fun s => (lane s.log).byUser.keys

theorem mem_merged_byUser {lane : LogDelta → LaneLog} (hl : Lane lane) (polls : List Sample)
    {k : String} : k ∈ (lane (merged polls)).byUser ↔ k ∈ namesOf lane polls := by
  induction polls using List.reverseRecOn with
  | nil =>
      show k ∈ (lane {}).byUser ↔ k ∈ []
      rw [hl.empty]
      exact ⟨fun h => absurd h Std.ExtTreeMap.not_mem_empty, fun h => absurd h List.not_mem_nil⟩
  | append_singleton polls s ih =>
      have users : (lane (merged (polls ++ [s]))).byUser =
          mergeInto UserExp.merge (lane (merged polls)).byUser (lane s.log).byUser := by
        rw [merged_concat, hl.merge]
        rfl
      have names : namesOf lane (polls ++ [s]) = namesOf lane polls ++ (lane s.log).byUser.keys := by
        unfold namesOf
        rw [List.flatMap_append, List.flatMap_singleton]
      rw [users, mem_mergeInto, ih, names, List.mem_append, Std.ExtTreeMap.mem_keys]

/-- Merged stretches have as many users as their polls name. -/
theorem size_merged_byUser {lane : LogDelta → LaneLog} (hl : Lane lane) (polls : List Sample) :
    (lane (merged polls)).byUser.size = (namesOf lane polls).dedup.length := by
  apply Nat.le_antisymm
  · exact size_le_of_keys fun k hk => (mem_merged_byUser hl polls).mp hk
  · apply le_size_of_keys (List.nodup_dedup _)
    intro k hk
    exact (mem_merged_byUser hl polls).mpr (List.mem_dedup.mp hk)

/-! ## The cap -/

/-- No lane of a stretch keeps more users than it has room for. -/
structure Within (d : LogDelta) : Prop where
  publicLane : d.publicLane.byUser.size ≤ expMaxUsers
  trustedLane : d.trustedLane.byUser.size ≤ expMaxUsers

/-- What a poll counts is within the cap. -/
theorem within_foldl_add (rs : List AuditRecord) : Within (rs.foldl LogDelta.add {}) := by
  rw [foldl_add]
  exact ⟨size_foldl_add _, size_foldl_add _⟩

/-- Some polls name few users on each lane. -/
structure FewUsers (polls : List Sample) : Prop where
  publicLane : (namesOf LogDelta.publicLane polls).dedup.length ≤ expMaxUsers
  trustedLane : (namesOf LogDelta.trustedLane polls).dedup.length ≤ expMaxUsers

theorem within_merged (polls : List Sample) : Within (merged polls) ↔ FewUsers polls := by
  constructor
  · rintro ⟨pub, trusted⟩
    rw [size_merged_byUser lane_public] at pub
    rw [size_merged_byUser lane_trusted] at trusted
    exact ⟨pub, trusted⟩
  · rintro ⟨pub, trusted⟩
    refine ⟨?_, ?_⟩
    · rw [size_merged_byUser lane_public]
      exact pub
    · rw [size_merged_byUser lane_trusted]
      exact trusted

/-! ## The polls of the open ten minutes -/

/-- The polls since the ten minutes last changed, after one more. -/
def extend (run : List Sample) (s : Sample) : List Sample :=
  if run.getLast?.any fun last => bucket res10m last.ts = bucket res10m s.ts then run ++ [s]
  else [s]

/-- The polls since the ten minutes last changed. -/
def openRun (polls : List Sample) : List Sample := polls.foldl extend []

theorem getLast?_extend (run : List Sample) (s : Sample) : (extend run s).getLast? = some s := by
  unfold extend
  split
  · exact List.getLast?_concat
  · rfl

theorem openRun_pair {s t : Sample} (h : bucket res10m s.ts = bucket res10m t.ts) :
    openRun [s, t] = [s, t] := by
  simp [openRun, extend, h]

/-- What the pipeline holds for the open ten minutes. -/
def HoldsRun (gate : Option (ℤ × LogDelta)) (run : List Sample) : Prop :=
  gate = run.getLast?.map fun last => (bucket res10m last.ts, merged run)

/-- The step lemma. -/
theorem holdsRun_gateStep {gate : Option (ℤ × LogDelta)} {run : List Sample}
    (h : HoldsRun gate run) (db : RollupDb) (s : Sample) (replace : Bool) :
    HoldsRun (gateStep gate db s replace).1 (extend run s) := by
  have fresh : ({} : LogDelta).merge s.log = merged [s] := rfl
  unfold HoldsRun at h ⊢
  rw [getLast?_extend, h]
  unfold extend
  cases run.getLast? with
  | none => rfl
  | some last =>
      simp only [Option.map_some, Option.any_some, decide_eq_true_eq]
      by_cases same : bucket res10m last.ts = bucket res10m s.ts
      · rw [gateStep_same same, if_pos same, merged_concat, same]
      · rw [gateStep_next same, if_neg same, fresh]

/-- The run lemma. -/
theorem holdsRun_pushAll (db : RollupDb) (feeds : List Feed) :
    HoldsRun (({} : Pipeline).pushAll db feeds).1.gate (openRun (feeds.map Feed.sample)) := by
  induction feeds using List.reverseRecOn with
  | nil => rfl
  | append_singleton feeds f ih =>
      have pushed : ({} : Pipeline).pushAll db (feeds ++ [f]) =
          (({} : Pipeline).pushAll db feeds).1.push (({} : Pipeline).pushAll db feeds).2 f.sample
            f.hists f.replace := List.foldl_concat ..
      have run : openRun ((feeds ++ [f]).map Feed.sample) =
          extend (openRun (feeds.map Feed.sample)) f.sample := by
        rw [List.map_append]
        exact List.foldl_concat ..
      rw [pushed, run, (push_gate _ _ f).1]
      exact holdsRun_gateStep ih _ _ _

/-! ## Every state -/

/-- Every stretch that is stored is within the cap. -/
def StoredWithin (db : RollupDb) : Prop := ∀ t log, db.gatelog t = some log → Within log

/-- The open ten minutes and the stored ones are within the cap. -/
structure StateWithin (st : Pipeline × RollupDb) : Prop where
  held : ∀ e, st.1.gate = some e → Within e.2
  stored : StoredWithin st.2

theorem storedWithin_gateStep {gate : Option (ℤ × LogDelta)} {db : RollupDb}
    (hgate : ∀ e, gate = some e → Within e.2) (hdb : StoredWithin db) (s : Sample)
    (replace : Bool) : StoredWithin (gateStep gate db s replace).2 := by
  cases gate with
  | none => exact hdb
  | some e =>
      obtain ⟨t, log⟩ := e
      have held : Within log := hgate _ rfl
      by_cases same : t = bucket res10m s.ts
      · rw [gateStep_same same]
        exact hdb
      · rw [gateStep_next same]
        unfold RollupDb.writeGatelog
        split
        · exact hdb
        · -- the row that is written, or the one that was there
          intro t' row hrow
          dsimp only at hrow
          by_cases ht : t' = t
          · rw [if_pos ht] at hrow
            cases replace with
            | true =>
                cases hrow
                exact held
            | false =>
                cases old : db.gatelog t with
                | none =>
                    rw [old] at hrow
                    cases hrow
                    exact held
                | some row' =>
                    rw [old] at hrow
                    cases hrow
                    exact hdb t _ old
          · rw [if_neg ht] at hrow
            exact hdb t' row hrow

theorem stored_users_bounded_iff {db : RollupDb} (hdb : StoredWithin db) (feeds : List Feed) :
    (∀ n, StateWithin (({} : Pipeline).pushAll db (feeds.take n))) ↔
      ∀ n, FewUsers (openRun ((feeds.take n).map Feed.sample)) := by
  -- the open ten minutes of a state, and what its polls name
  have held : ∀ fs : List Feed,
      (∀ e, (({} : Pipeline).pushAll db fs).1.gate = some e → Within e.2) ↔
        FewUsers (openRun (fs.map Feed.sample)) := by
    intro fs
    have holds := holdsRun_pushAll db fs
    unfold HoldsRun at holds
    rw [holds, ← within_merged]
    cases last : (openRun (fs.map Feed.sample)).getLast? with
    | none =>
        rw [List.getLast?_eq_none_iff.mp last]
        exact ⟨fun _ => within_foldl_add [], fun _ e he => nomatch he⟩
    | some s =>
        constructor
        · exact fun h => h _ rfl
        · intro h e he
          cases he
          exact h
  constructor
  · exact fun h n => (held _).mp (h n).held
  · intro few n
    refine ⟨(held _).mpr (few n), ?_⟩
    induction n with
    | zero => exact hdb
    | succ n ih =>
        rw [List.take_add_one]
        cases feeds[n]? with
        | none =>
            rw [Option.toList_none, List.append_nil]
            exact ih
        | some f =>
            have pushed : ({} : Pipeline).pushAll db (feeds.take n ++ [f]) =
                (({} : Pipeline).pushAll db (feeds.take n)).1.push
                  (({} : Pipeline).pushAll db (feeds.take n)).2 f.sample f.hists f.replace :=
              List.foldl_concat ..
            rw [Option.toList_some, pushed]
            unfold StoredWithin
            rw [(push_gate _ _ f).2]
            exact storedWithin_gateStep ((held _).mpr (few n)) ih _ _

/-- A poll of some users, one request each. -/
def pollOf (ts : ℤ) (users : List ℕ) : Feed :=
  { sample := { ts := ts
                log := (users.map fun i => auditRecord (auditKey i)).foldl LogDelta.add {} } }

/-- Two polls of one user each, in the same ten minutes. -/
theorem a_quiet_bucket_is_within :
    StoredWithin {} ∧
      ∀ n, StateWithin (({} : Pipeline).pushAll {} ([pollOf 0 [1], pollOf 5 [2]].take n)) := by
  have nothing : StoredWithin {} := fun _ _ h => nomatch h
  have few : ∀ m ≤ 2,
      FewUsers (openRun (([pollOf 0 [1], pollOf 5 [2]].take m).map Feed.sample)) := by
    intro m hm
    match m, hm with
    | 0, _ => exact ⟨by decide, by decide⟩
    | 1, _ => exact ⟨by decide +kernel, by decide +kernel⟩
    | 2, _ => exact ⟨by decide +kernel, by decide +kernel⟩
  refine ⟨nothing, (stored_users_bounded_iff nothing [pollOf 0 [1], pollOf 5 [2]]).mpr ?_⟩
  intro n
  rcases Nat.le_total n 2 with hn | hn
  · exact few n hn
  · rw [List.take_of_length_le hn, ← List.take_of_length_le (l := [_, _]) le_rfl]
    exact few 2 le_rfl

/-- The two polls before the third one. -/
def crowd : List Feed := [pollOf 0 (List.range 64), pollOf 5 [64]]

theorem crowd_held :
    (({} : Pipeline).pushAll {} crowd).1.gate = some (0, merged (crowd.map Feed.sample)) := by
  have run : openRun (crowd.map Feed.sample) = crowd.map Feed.sample := openRun_pair (by decide)
  have holds := holdsRun_pushAll {} crowd
  unfold HoldsRun at holds
  rw [run] at holds
  exact holds

theorem crowd_names :
    expMaxUsers < (namesOf LogDelta.publicLane (crowd.map Feed.sample)).dedup.length := by
  -- a poll of few users names all of them
  have named : ∀ users : List ℕ, users.length ≤ expMaxUsers → ∀ ts, ∀ i ∈ users,
      String.ofList (auditKey i) ∈ (pollOf ts users).sample.log.publicLane.byUser.keys := by
    intro users few ts i hi
    have counted : (pollOf ts users).sample.log =
        totals (users.map fun i => auditRecord (auditKey i)) :=
      GatePolls.foldl_add_of_few (few_of_length (by rw [List.length_map]; exact few))
    rw [counted, Std.ExtTreeMap.mem_keys]
    exact mem_total_auditRecords hi
  have sub : ((List.range 65).map fun i => String.ofList (auditKey i)) ⊆
      (namesOf LogDelta.publicLane (crowd.map Feed.sample)).dedup := by
    intro k hk
    obtain ⟨i, hi, rfl⟩ := List.mem_map.mp hk
    have hi := List.mem_range.mp hi
    rw [List.mem_dedup]
    by_cases last : i = 64
    · subst last
      exact List.mem_flatMap.mpr ⟨_, List.mem_cons_of_mem _ List.mem_cons_self,
        named [64] (by decide) 5 64 List.mem_cons_self⟩
    · exact List.mem_flatMap.mpr ⟨_, List.mem_cons_self,
        named (List.range 64) (by simp [expMaxUsers]) 0 i (List.mem_range.mpr (by omega))⟩
  have count := (List.subperm_of_subset auditKeys_nodup sub).length_le
  rw [List.length_map, List.length_range] at count
  have max : expMaxUsers = 64 := rfl
  omega

/-- Sixty-four users in one poll and another one in the next: both polls are within the cap, the
ten minutes stored of them are not. -/
theorem a_stored_stretch_outgrows_its_cap :
    (∀ f ∈ crowd, Within f.sample.log) ∧
      ∃ log, (({} : Pipeline).pushAll {} (crowd ++ [pollOf 600 []])).2.gatelog 0 = some log ∧
        expMaxUsers < log.publicLane.byUser.size := by
  refine ⟨?_, merged (crowd.map Feed.sample), ?_, ?_⟩
  · intro f hf
    simp only [crowd, List.mem_cons, List.not_mem_nil, or_false] at hf
    rcases hf with rfl | rfl
    · exact within_foldl_add _
    · exact within_foldl_add _
  · -- the third poll closes the ten minutes of the first two
    have recorded : ¬(merged (crowd.map Feed.sample)).isEmpty = true := by
      rw [isEmpty_merged]
      intro empty
      exact empty (pollOf 5 [64]).sample (List.mem_cons_of_mem _ List.mem_cons_self) rfl
    have pushed : ({} : Pipeline).pushAll {} (crowd ++ [pollOf 600 []]) =
        (({} : Pipeline).pushAll {} crowd).1.push (({} : Pipeline).pushAll {} crowd).2
          (pollOf 600 []).sample (pollOf 600 []).hists (pollOf 600 []).replace :=
      List.foldl_concat ..
    have later : (0 : ℤ) ≠ bucket res10m (pollOf 600 []).sample.ts := by
      show (0 : ℤ) ≠ bucket res10m 600
      decide
    rw [pushed, (push_gate _ _ _).2, crowd_held, gateStep_next later]
    have replaced : (pollOf 600 []).replace = true := rfl
    unfold RollupDb.writeGatelog
    rw [if_neg recorded]
    dsimp only
    rw [if_pos rfl, if_pos replaced]
  · rw [size_merged_byUser lane_public]
    exact crowd_names

end Lss.Analysis.UserCaps
