import Lss.Model.BenchWatch

/-!
# When the watch stops a benchmark that is alone

The watch never stops a benchmark for its own direct requests, and it always stops one when more
runs on the engine than the benchmark can have there. Its own requests through the gateway are
subtracted only where the trusted lane is the lane of the engine's default priority.
-/

set_option autoImplicit false

namespace Lss.Analysis.BenchAborts

open Lss.Model

/-- Nobody but the benchmark has a request in the system: `direct` of its own on the engine, in
the lane the configuration names, and the others of its own in the trusted lane. -/
structure Alone (stepMaxConcurrency direct : ℕ) (o : SafetyObs) : Prop where
  bounded : direct ≤ stepMaxConcurrency
  running : o.running = some ((direct : ℚ) + o.ownGatewayInflight)
  table : ∀ n ∈ o.otherUsersInflight, n = 0
  publicCount : ∀ n ∈ o.gatewayPublic, n = if o.ownLane = .publicLane then (direct : ℚ) else 0
  trustedCount : ∀ n ∈ o.gatewayTrusted,
    n = (if o.ownLane = .trustedLane then (direct : ℚ) else 0) + o.ownGatewayInflight

/-- A request of the benchmark through the gateway stands in a lane nothing is subtracted from,
and no user table says whose it is. -/
def OwnRequestShows (o : SafetyObs) : Prop :=
  o.ownLane ≠ .trustedLane ∧ 0 < o.ownGatewayInflight ∧ o.otherUsersInflight = none ∧
    o.gatewayPublic.isSome ∧ o.gatewayTrusted.isSome

/-- The watch stops a run for what a poll shows of others through the gateway, or for more
running than the benchmark can have launched. -/
theorem abortReason_eq_none {o : SafetyObs} {step : ℕ} :
    abortReason o step = none ↔
      (∀ f ∈ foreignNow o step, f.2 ≠ .engine → f.1 < 1 / 2) ∧
        ∀ r ∈ o.running, r ≤ benchInflight o step + 1 / 2 := by
  have backstop : (o.running.bind fun r =>
      let allowed := benchInflight o step
      if allowed + 1 / 2 < r then
        some ("real traffic: " ++ F64.fixed 0 r ++
          " requests running, the bench launched at most " ++ F64.fixed 0 allowed)
      else none) = none ↔ ∀ r ∈ o.running, r ≤ benchInflight o step + 1 / 2 := by
    rw [Option.bind_eq_none_iff]
    apply forall_congr'
    intro r
    apply imp_congr_right
    intro _
    dsimp only
    rw [ite_eq_right_iff]
    constructor
    · intro h
      by_contra hlt
      exact Option.some_ne_none _ (h (not_le.mp hlt))
    · intro h hlt
      exact absurd h (not_le.mpr hlt)
  unfold abortReason
  cases hf : foreignNow o step with
  | none =>
      rw [Option.filter_none, backstop]
      constructor
      · intro h
        refine ⟨?_, h⟩
        intro f hf
        cases hf
      · exact fun h => h.2
  | some f =>
      obtain ⟨n, source⟩ := f
      by_cases hn : 1 / 2 ≤ n ∧ source ≠ .engine
      · rw [Option.filter_some_pos (by simpa using hn)]
        constructor
        · intro h
          cases source <;> cases h
        · intro h
          exact absurd (h.1 _ rfl hn.2) (not_lt.mpr hn.1)
      · rw [Option.filter_some_neg (by simpa using hn), backstop]
        constructor
        · intro h
          refine ⟨?_, h⟩
          intro f hf hs
          cases hf
          by_contra hlt
          exact hn ⟨not_lt.mp hlt, hs⟩
        · exact fun h => h.2

/-- What the watch allows is at least what a benchmark that is alone has running. -/
theorem Alone.le_allowed {step direct : ℕ} {o : SafetyObs} (h : Alone step direct o) :
    (direct : ℚ) + o.ownGatewayInflight ≤ benchInflight o step := by
  have bounded : (direct : ℚ) ≤ step := by exact_mod_cast h.bounded
  unfold benchInflight
  linarith

/-- What the lanes show of a benchmark that is alone. -/
theorem Alone.lanes {step direct : ℕ} {o : SafetyObs} (h : Alone step direct o)
    (table : o.otherUsersInflight = none) {p t : ℚ} (hp : o.gatewayPublic = some p)
    (ht : o.gatewayTrusted = some t) :
    foreignNow o step =
      some (if o.ownLane = .trustedLane then 0 else (o.ownGatewayInflight : ℚ), .lanes) := by
  have bounded : (direct : ℚ) ≤ step := by exact_mod_cast h.bounded
  have own : (0 : ℚ) ≤ o.ownGatewayInflight := Nat.cast_nonneg _
  have publicCount := h.publicCount p hp
  have trustedCount := h.trustedCount t ht
  have allowed : benchInflight o step = step + o.ownGatewayInflight := rfl
  unfold foreignNow
  rw [table, hp, ht]
  dsimp only
  cases hl : o.ownLane with
  | trustedLane =>
      rw [hl, if_neg (by decide)] at publicCount
      rw [hl, if_pos rfl] at trustedCount
      have none_left : max (t - benchInflight o step) 0 = 0 := by
        rw [max_eq_right]
        linarith
      rw [if_pos rfl]
      dsimp only
      rw [none_left, publicCount, add_zero]
  | publicLane =>
      rw [hl, if_pos rfl] at publicCount
      rw [hl, if_neg (by decide), zero_add] at trustedCount
      have none_left : max (p - benchInflight o step) 0 = 0 := by
        rw [max_eq_right]
        linarith
      rw [if_neg (by decide)]
      dsimp only
      rw [none_left, trustedCount, zero_add]
  | neither =>
      rw [hl, if_neg (by decide)] at publicCount
      rw [hl, if_neg (by decide), zero_add] at trustedCount
      rw [if_neg (by decide)]
      dsimp only
      rw [publicCount, trustedCount, zero_add]

/-- Without the table and both lanes a poll shows others by the engine alone. -/
theorem engine_of_unread {step : ℕ} {o : SafetyObs}
    (table : o.otherUsersInflight = none)
    (unread : ¬(o.gatewayPublic.isSome ∧ o.gatewayTrusted.isSome)) :
    ∀ f ∈ foreignNow o step, f.2 = .engine := by
  intro f hf
  unfold foreignNow at hf
  rw [table] at hf
  cases hp : o.gatewayPublic with
  | none =>
      rw [hp] at hf
      obtain ⟨r, _, rfl⟩ := Option.map_eq_some_iff.mp hf
      rfl
  | some p =>
      cases ht : o.gatewayTrusted with
      | none =>
          rw [hp, ht] at hf
          obtain ⟨r, _, rfl⟩ := Option.map_eq_some_iff.mp hf
          rfl
      | some t =>
          rw [hp, ht] at unread
          exact absurd ⟨rfl, rfl⟩ unread

theorem Alone.backstop {step direct : ℕ} {o : SafetyObs} (h : Alone step direct o) :
    ∀ r ∈ o.running, r ≤ benchInflight o step + 1 / 2 := by
  intro r hr
  rw [h.running] at hr
  obtain rfl := Option.some.inj hr
  have allowed := h.le_allowed
  linarith

theorem Alone.survives_iff {step direct : ℕ} {o : SafetyObs} (h : Alone step direct o) :
    abortReason o step = none ↔ ¬OwnRequestShows o := by
  rw [abortReason_eq_none, and_iff_left h.backstop]
  cases table : o.otherUsersInflight with
  | some n =>
      have seen : foreignNow o step = some ((n : ℚ), .users) := by
        unfold foreignNow
        rw [table]
      have nobody := h.table n table
      rw [seen]
      constructor
      · intro _ shows
        have none_listed := shows.2.2.1
        rw [table] at none_listed
        cases none_listed
      · intro _ f hf _
        cases hf
        rw [nobody, Nat.cast_zero]
        norm_num
  | none =>
      by_cases read : o.gatewayPublic.isSome ∧ o.gatewayTrusted.isSome
      · obtain ⟨p, hp⟩ := Option.isSome_iff_exists.mp read.1
        obtain ⟨t, ht⟩ := Option.isSome_iff_exists.mp read.2
        rw [h.lanes table hp ht]
        constructor
        · rintro quiet ⟨lane, own, _⟩
          have less := quiet _ rfl (fun e => nomatch e)
          rw [if_neg lane] at less
          have one : (1 : ℚ) ≤ o.ownGatewayInflight := by exact_mod_cast own
          linarith
        · intro hidden f hf _
          cases hf
          dsimp only
          split
          · norm_num
          · rename_i lane
            have own : o.ownGatewayInflight = 0 := by
              by_contra hne
              exact hidden ⟨lane, Nat.pos_of_ne_zero hne, table, read.1, read.2⟩
            rw [own, Nat.cast_zero]
            norm_num
      · constructor
        · intro _ shows
          exact read ⟨shows.2.2.2.1, shows.2.2.2.2⟩
        · intro _ f hf hs
          exact absurd (engine_of_unread table read f hf) hs

/-- The watch spares a benchmark that is alone unless an own request through the gateway shows in
a lane nothing is subtracted from, and it stops every run in which more is running than the
benchmark can have. -/
theorem abort_watch_spares_iff (o : SafetyObs) (step : ℕ) :
    (∀ direct, Alone step direct o → (abortReason o step = none ↔ ¬OwnRequestShows o)) ∧
      ∀ r, o.running = some r → (step : ℚ) + o.ownGatewayInflight + 1 ≤ r →
        (abortReason o step).isSome := by
  refine ⟨fun direct alone => alone.survives_iff, ?_⟩
  intro r hr more
  rw [Option.isSome_iff_ne_none]
  intro spared
  have few := (abortReason_eq_none.mp spared).2 r hr
  unfold benchInflight at few
  linarith

/-- A benchmark on a machine whose public lane has the default priority, alone, with one request
of its own through a gateway that lists no users. -/
def sanityCheck : SafetyObs :=
  { running := some 1
    queue := some 0
    gatewayPublic := some 0
    gatewayTrusted := some 1
    ownGatewayInflight := 1
    ownLane := .publicLane }

theorem alone_sanityCheck : Alone 1 0 sanityCheck where
  bounded := by decide
  running := by decide +kernel
  table n hn := nomatch hn
  publicCount n hn := by
    cases hn
    decide
  trustedCount n hn := by
    cases hn
    decide +kernel

/-- The same with two more requests on the engine, and the same where the trusted lane has the
default priority. -/
theorem abort_watch_at_sanityCheck :
    (abortReason sanityCheck 1 = none ↔ ¬OwnRequestShows sanityCheck) ∧
      (abortReason { sanityCheck with running := some 3 } 1).isSome :=
  ⟨(abort_watch_spares_iff sanityCheck 1).1 0 alone_sanityCheck,
    (abort_watch_spares_iff { sanityCheck with running := some 3 } 1).2 3 rfl (by decide +kernel)⟩

/-- The watch stops a benchmark that is alone. -/
theorem own_sanity_check_aborts :
    Alone 1 0 sanityCheck ∧ ownLaneFor "0" "10" = .publicLane ∧ abortReason sanityCheck 1 ≠ none :=
  ⟨alone_sanityCheck, by decide, by decide +kernel⟩

end Lss.Analysis.BenchAborts
