import Lss.Analysis.PassedBuckets
import Lss.Model.Growth

/-!
# What a growth figure compares

The most users at once of two weeks are compared. Where this machine's own users are not known of
both weeks, each week falls back on what it has of its own: the users of the gateway, or the
requests that ran. So the two weeks may be counted in two ways.
-/

set_option autoImplicit false

namespace Lss.Analysis.GrowthBasis

open Lss.Model Lss.Model.AdviceRun Lss.Analysis.RollupRows Lss.Analysis.PassedBuckets

/-- What users at once are told by: users on this machine, users of the gateway, and requests. -/
def userMetrics : List String := ["users_active_here", "users_active", "running"]

/-- The highest value that a metric had between two times, and zero where it had none. -/
def highest (db : RollupDb) (metric : String) (start stop : ℤ) : ℚ :=
  ((merged db res10m metric start stop).map fun m => m.1.max).getD 0

/-- Both weeks are counted in one metric, and the basis is told where that is the gateway's count of
users. -/
def OneMetric (db : RollupDb) (now : ℤ) (g : Growth) : Prop :=
  ∃ metric ∈ userMetrics,
    g.peakUsers = highest db metric (now - week) (now + 1) ∧
      g.peakUsersPrev = highest db metric (now - 2 * week) (now - week) ∧
      (g.peakUsersBasis.isSome ↔ metric = "users_active")

/-- Two weeks go the same way, or the one without users of the gateway had no request either. -/
def SameWay (db : RollupDb) (now : ℤ) : Prop :=
  let users := highest db "users_active" (now - week) (now + 1)
  let usersPrev := highest db "users_active" (now - 2 * week) (now - week)
  byMachine db now = true ∨ (0 < users ↔ 0 < usersPrev) ∨
    (0 < users ∧ highest db "running" (now - 2 * week) (now - week) = usersPrev) ∨
    (0 < usersPrev ∧ highest db "running" (now - week) (now + 1) = users)

/-! ## The highest value of a range -/

/-- Values merged one by one come to the highest of them. -/
theorem foldl_merge_max (rows : List Agg) (total : Agg) :
    ∃ m, rows.foldl (fun (total : Option Agg) a => some (total.elim a fun t => t.merge a))
        (some total) = some m ∧
      (0 < m.max ↔ 0 < total.max ∨ ∃ a ∈ rows, 0 < a.max) := by
  induction rows generalizing total with
  | nil => exact ⟨total, rfl, by simp⟩
  | cons a rows ih =>
      obtain ⟨m, hm, hpos⟩ := ih (total.merge a)
      refine ⟨m, hm, ?_⟩
      rw [hpos, show (total.merge a).max = max total.max a.max from rfl, lt_max_iff,
        List.exists_mem_cons_iff, or_assoc]

/-- The highest value is above zero where one of the rows is. -/
theorem highest_pos_iff (db : RollupDb) (metric : String) (start stop : ℤ) :
    0 < highest db metric start stop ↔
      ∃ row ∈ db.rollupRows res10m metric start stop, 0 < row.2.max := by
  unfold highest merged
  cases db.rollupRows res10m metric start stop with
  | nil => simp
  | cons row rows =>
      obtain ⟨m, hm, hpos⟩ := foldl_merge_max (rows.map Prod.snd) row.2
      simp only [List.map_cons, List.foldl_cons, Option.elim_none, hm, Option.map_some,
        Option.getD_some, hpos, List.exists_mem_cons_iff, List.mem_map, exists_exists_and_eq_and]

/-- The rows of two ranges side by side. -/
theorem rollupRows_append (db : RollupDb) (res : ℤ) (metric : String) {start stop : ℤ} (mid : ℤ)
    (first : start ≤ mid) (second : mid ≤ stop) :
    db.rollupRows res metric start stop =
      db.rollupRows res metric start mid ++ db.rollupRows res metric mid stop := by
  have steps : (stop - start).toNat = (mid - start).toNat + (stop - mid).toNat := by omega
  have behind : ∀ i : ℕ, start + (((mid - start).toNat + i : ℕ) : ℤ) = mid + i := by omega
  unfold RollupDb.rollupRows
  rw [steps, List.range_add, List.filterMap_append, List.filterMap_map]
  simp only [Function.comp_def, behind]

/-! ## What is shown -/

section Shown

variable (db : RollupDb) (now : ℤ)

theorem gateUsers_eq (start stop : ℤ) :
    gateUsers db start stop =
      if 0 < highest db "users_active" start stop then
        some (highest db "users_active" start stop) else none := by
  unfold gateUsers highest
  cases merged db res10m "users_active" start stop with
  | none => simp
  | some m => simp [Option.filter]

/-- Without the machine's own counts a week takes the gateway's users, or its requests. -/
theorem peakUsers_of_gate (other : byMachine db now = false) (start stop : ℤ) :
    peakUsers db now start stop =
      if 0 < highest db "users_active" start stop then highest db "users_active" start stop
      else highest db "running" start stop := by
  rw [peakUsers, if_neg (by simp [other]), gateUsers_eq]
  split_ifs
  · rfl
  · rfl

theorem isSome_usersBasis :
    (usersBasis db now).isSome ↔ byMachine db now = false ∧
      (0 < highest db "users_active" (now - 2 * week) (now - week) ∨
        0 < highest db "users_active" (now - week) (now + 1)) := by
  have both : 0 < highest db "users_active" (now - 2 * week) (now + 1) ↔
      0 < highest db "users_active" (now - 2 * week) (now - week) ∨
        0 < highest db "users_active" (now - week) (now + 1) := by
    rw [highest_pos_iff, highest_pos_iff, highest_pos_iff,
      rollupRows_append db res10m "users_active" (now - week) (by unfold week; omega)
        (by unfold week; omega)]
    simp only [List.mem_append, or_and_right, exists_or]
  rw [← both, usersBasis, gateUsers_eq]
  cases byMachine db now <;> split_ifs <;> simp_all

/-- On this machine's own counts both weeks are counted, and no basis is told. -/
theorem peakUsers_of_machine (own : byMachine db now = true) (start stop : ℤ) :
    peakUsers db now start stop = highest db "users_active_here" start stop := by
  rw [peakUsers, if_pos own]
  rfl

theorem days_nonpos {seconds : ℤ} : (seconds : ℚ) / 86400 ≤ 0 ↔ seconds ≤ 0 := by
  rw [div_le_iff₀ (by norm_num), zero_mul]
  exact Int.cast_nonpos

/-- The figures are there exactly where the earlier week has data. -/
theorem growth_isSome_iff (first : ℤ) : (growth db now first).isSome ↔ first < now - week := by
  unfold growth
  dsimp only
  split_ifs with uncovered
  · rw [days_nonpos] at uncovered
    simp only [Option.isSome_none, Bool.false_eq_true, false_iff]
    unfold week at *
    omega
  · rw [days_nonpos] at uncovered
    simp only [Option.isSome_some, true_iff]
    unfold week at *
    omega

end Shown

section Weeks

variable {db : RollupDb} {now first : ℤ} {g : Growth}

theorem of_growth (h : growth db now first = some g) :
    g.peakUsers = peakUsers db now (now - week) (now + 1) ∧
      g.peakUsersPrev = peakUsers db now (now - 2 * week) (now - week) ∧
      g.peakUsersBasis = usersBasis db now := by
  unfold growth at h
  dsimp only at h
  split_ifs at h
  cases h
  exact ⟨rfl, rfl, rfl⟩

/-- Two weeks that go the same way are counted in one metric. -/
theorem oneMetric_of_sameWay (same : SameWay db now) (h : growth db now first = some g) :
    OneMetric db now g := by
  obtain ⟨peak, peakPrev, basis⟩ := of_growth h
  unfold OneMetric
  rw [peak, peakPrev, basis, isSome_usersBasis]
  cases own : byMachine db now with
  | true =>
      refine ⟨"users_active_here", by simp [userMetrics], peakUsers_of_machine db now own _ _,
        peakUsers_of_machine db now own _ _, by simp⟩
  | false =>
      rw [peakUsers_of_gate db now own, peakUsers_of_gate db now own]
      by_cases users : 0 < highest db "users_active" (now - week) (now + 1) <;>
        by_cases usersPrev : 0 < highest db "users_active" (now - 2 * week) (now - week)
      · exact ⟨"users_active", by simp [userMetrics], by simp [users], by simp [usersPrev],
          by simp [users]⟩
      · have idle : highest db "running" (now - 2 * week) (now - week) =
            highest db "users_active" (now - 2 * week) (now - week) := by
          simpa [SameWay, own, users, usersPrev] using same
        exact ⟨"users_active", by simp [userMetrics], by simp [users], by simp [usersPrev, idle],
          by simp [users]⟩
      · have idle : highest db "running" (now - week) (now + 1) =
            highest db "users_active" (now - week) (now + 1) := by
          simpa [SameWay, own, users, usersPrev] using same
        exact ⟨"users_active", by simp [userMetrics], by simp [users, idle], by simp [usersPrev],
          by simp [usersPrev]⟩
      · exact ⟨"running", by simp [userMetrics], by simp [users], by simp [usersPrev],
          by simp [users, usersPrev]⟩

/-- Weeks that are counted in one metric go the same way. -/
theorem sameWay_of_oneMetric (h : growth db now first = some g) (one : OneMetric db now g) :
    SameWay db now := by
  obtain ⟨peak, peakPrev, basis⟩ := of_growth h
  obtain ⟨metric, -, hpeak, hpeakPrev, told⟩ := one
  rw [basis, isSome_usersBasis] at told
  rw [peak] at hpeak
  rw [peakPrev] at hpeakPrev
  cases own : byMachine db now with
  | true => exact Or.inl own
  | false =>
      rw [peakUsers_of_gate db now own] at hpeak hpeakPrev
      by_cases users : 0 < highest db "users_active" (now - week) (now + 1) <;>
        by_cases usersPrev : 0 < highest db "users_active" (now - 2 * week) (now - week)
      · exact Or.inr (Or.inl (by simp [users, usersPrev]))
      · obtain rfl := told.mp ⟨own, Or.inr users⟩
        rw [if_neg usersPrev] at hpeakPrev
        exact Or.inr (Or.inr (Or.inl ⟨users, hpeakPrev⟩))
      · obtain rfl := told.mp ⟨own, Or.inl usersPrev⟩
        rw [if_neg users] at hpeak
        exact Or.inr (Or.inr (Or.inr ⟨usersPrev, hpeak⟩))
      · exact Or.inr (Or.inl (by simp [users, usersPrev]))

end Weeks

/-- Whatever samples have been pushed, and whenever growth is asked for, its peaks are of one metric
exactly where there is no earlier week, or the weeks go the same way. -/
theorem growth_oneMetric_iff (p : Pipeline) (old : RollupDb) (feeds : List Feed) (now first : ℤ) :
    let db := (p.pushAll old feeds).2
    (∀ g, growth db now first = some g → OneMetric db now g) ↔
      now - week ≤ first ∨ SameWay db now := by
  intro db
  constructor
  · intro one
    by_cases covered : first < now - week
    · obtain ⟨g, hg⟩ := Option.isSome_iff_exists.mp ((growth_isSome_iff db now first).mpr covered)
      exact Or.inr (sameWay_of_oneMetric hg (one g hg))
    · exact Or.inl (not_lt.mp covered)
  · rintro (uncovered | same) g hg
    · have covered := (growth_isSome_iff db now first).mp (Option.isSome_of_eq_some hg)
      omega
    · exact oneMetric_of_sameWay same hg

/-! ## A gateway that appears -/

theorem mem_rollupRows_iff {db : RollupDb} {res start stop : ℤ} {metric : String} {row : ℤ × Agg} :
    row ∈ db.rollupRows res metric start stop ↔
      (start ≤ row.1 ∧ row.1 < stop) ∧
        ∃ r, db.rollup res metric row.1 = some r ∧ row.2 = r.agg := by
  unfold RollupDb.rollupRows
  rw [List.mem_filterMap]
  constructor
  · rintro ⟨i, hi, hrow⟩
    obtain ⟨r, hr, rfl⟩ := Option.map_eq_some_iff.mp hrow
    rw [List.mem_range] at hi
    exact ⟨by dsimp only; omega, r, hr, rfl⟩
  · rintro ⟨⟨low, high⟩, r, hr, hagg⟩
    refine ⟨(row.1 - start).toNat, List.mem_range.mpr (by omega), ?_⟩
    rw [show start + ((row.1 - start).toNat : ℤ) = row.1 by omega, hr, Option.map_some, ← hagg]

theorem highest_pos_iff_row (db : RollupDb) (metric : String) (start stop : ℤ) :
    0 < highest db metric start stop ↔
      ∃ ts, (start ≤ ts ∧ ts < stop) ∧ ∃ r, db.rollup res10m metric ts = some r ∧ 0 < r.max := by
  rw [highest_pos_iff]
  constructor
  · rintro ⟨row, hrow, hpos⟩
    obtain ⟨inside, r, hr, hagg⟩ := mem_rollupRows_iff.mp hrow
    exact ⟨row.1, inside, r, hr, by rwa [hagg] at hpos⟩
  · rintro ⟨ts, inside, r, hr, hpos⟩
    exact ⟨(ts, r.agg), mem_rollupRows_iff.mpr ⟨inside, r, hr, rfl⟩, hpos⟩

theorem usersHere_of_none {db : RollupDb}
    (never : ∀ ts, db.rollup res10m "users_active_here" ts = none) (start stop : ℤ) :
    usersHere db start stop = none := by
  have empty : db.rollupRows res10m "users_active_here" start stop = [] := by
    rw [List.eq_nil_iff_forall_not_mem]
    intro row hrow
    obtain ⟨-, r, hr, -⟩ := mem_rollupRows_iff.mp hrow
    rw [never] at hr
    cases hr
  rw [usersHere, merged, empty]
  rfl

/-- Three requests at once in the first week, with no gateway. A week later there is a gateway, which
counts two users and does not tell on which machine they are. -/
def gatewayAppears : List Feed :=
  [{ sample := { ts := 0, metrics := some { running := 3 } } },
    { sample := {
        ts := 604800
        metrics := some { running := 1 }
        gate := some {}
        users := [{ id := "a", inflight := 1 }, { id := "b", inflight := 1 }] } },
    { sample := { ts := 605400 } }]

def appearedDb : RollupDb := (({} : Pipeline).pushAll {} gatewayAppears).2

theorem bucketOf_gatewayAppears {f : Feed} (hf : f ∈ gatewayAppears) :
    bucketOf res10m f = 0 ∨ bucketOf res10m f = 604800 ∨ bucketOf res10m f = 605400 := by
  simp only [gatewayAppears, List.mem_cons, List.not_mem_nil, or_false] at hf
  rcases hf with rfl | rfl | rfl
  · exact Or.inl (by decide)
  · exact Or.inr (Or.inl (by decide))
  · exact Or.inr (Or.inr (by decide))

/-- There are rows of the ten minutes of the samples only. -/
theorem row_elsewhere {metric : String} (known : metric ∉ latencyNames) {ts : ℤ} {r : RollupRow}
    (h : appearedDb.rollup res10m metric ts = some r) : ts = 0 ∨ ts = 604800 ∨ ts = 605400 := by
  by_contra other
  have passed : Passed res10m ts gatewayAppears := passed_of_empty (by
    rintro f hf rfl
    exact other (bucketOf_gatewayAppears hf))
  have away : held res10m ts metric (withPoints none gatewayAppears) = [] := held_away (by
    rintro f hf rfl
    exact other (bucketOf_gatewayAppears hf))
  rw [appearedDb, row_of_passed (by simp) known passed, away] at h
  cases h

theorem no_usersHere (ts : ℤ) : appearedDb.rollup res10m "users_active_here" ts = none := by
  by_contra some
  obtain ⟨r, hr⟩ := Option.ne_none_iff_exists'.mp some
  rcases row_elsewhere (by decide) hr with rfl | rfl | rfl
  · exact some (by decide +kernel)
  · exact some (by decide +kernel)
  · exact some (by decide +kernel)

/-- The gateway counts no users in the first week. -/
theorem no_users_before : ¬ 0 < highest appearedDb "users_active" (605400 - 2 * week)
    (605400 - week) := by
  rw [highest_pos_iff_row]
  rintro ⟨ts, ⟨-, before⟩, r, hr, -⟩
  unfold week at before
  rcases row_elsewhere (by decide) hr with rfl | rfl | rfl
  · have none' : appearedDb.rollup res10m "users_active" 0 = none := by decide +kernel
    rw [none'] at hr
    cases hr
  · omega
  · omega

theorem users_after : 0 < highest appearedDb "users_active" (605400 - week) (605400 + 1) := by
  have two : (appearedDb.rollup res10m "users_active" 604800).map RollupRow.max = some 2 := by
    decide +kernel
  obtain ⟨r, hr, hmax⟩ := Option.map_eq_some_iff.mp two
  rw [highest_pos_iff_row]
  exact ⟨604800, by unfold week; omega, r, hr, by rw [hmax]; norm_num⟩

theorem requests_before : 0 < highest appearedDb "running" (605400 - 2 * week) (605400 - week) := by
  have three : (appearedDb.rollup res10m "running" 0).map RollupRow.max = some 3 := by
    decide +kernel
  obtain ⟨r, hr, hmax⟩ := Option.map_eq_some_iff.mp three
  rw [highest_pos_iff_row]
  exact ⟨0, by unfold week; omega, r, hr, by rw [hmax]; norm_num⟩

/-- The requests of one week are compared with the users of the next. -/
theorem requests_against_users : ¬ ∀ (feeds : List Feed) (now first : ℤ) (g : Growth),
    growth (({} : Pipeline).pushAll {} feeds).2 now first = some g →
      OneMetric (({} : Pipeline).pushAll {} feeds).2 now g := by
  intro claim
  have covered : (growth appearedDb 605400 0).isSome :=
    (growth_isSome_iff appearedDb 605400 0).mpr (by unfold week; omega)
  obtain ⟨g, hg⟩ := Option.isSome_iff_exists.mp covered
  rcases sameWay_of_oneMetric hg (claim gatewayAppears 605400 0 g hg) with own | same | idle | idle
  · rw [byMachine, usersHere_of_none no_usersHere] at own
    cases own
  · exact no_users_before (same.mp users_after)
  · exact no_users_before (idle.2 ▸ requests_before)
  · exact no_users_before idle.1

end Lss.Analysis.GrowthBasis
