import Lss.Model.GatewayRead

/-!
# What the label about reject codes promises

The stamp says from when on every request has its code. It is set again by the first requests
that have theirs after the last that had not; these may be of the same stretch of the log, or of
one at the same time, and then the stamp promises too much.
-/

set_option autoImplicit false

namespace Lss.Analysis.CodeLabels

open Lss.Model

/-! ## Stretches with and without codes -/

/-- The number of requests of a lane that are broken down by key and code. -/
def codes (lane : LaneLog) : ℕ :=
  lane.byKeyStatus.foldl (fun n _ codes => codes.foldl (fun n _ k => n + k) n) 0

/-- Every request of a lane has its code. -/
def LaneCoded (lane : LaneLog) : Prop := lane.requests ≤ codes lane

/-- Every request of a stretch of the log has its code. -/
def Coded (log : LogDelta) : Prop := LaneCoded log.publicLane ∧ LaneCoded log.trustedLane

/-- There is a request in a stretch of the log. -/
def HasRequests (log : LogDelta) : Prop :=
  log.publicLane.requests ≠ 0 ∨ log.trustedLane.requests ≠ 0

instance (log : LogDelta) : Decidable (HasRequests log) :=
  inferInstanceAs (Decidable (_ ∨ _))

instance (lane : LaneLog) : Decidable (LaneCoded lane) := inferInstanceAs (Decidable (_ ≤ _))

instance (log : LogDelta) : Decidable (Coded log) := inferInstanceAs (Decidable (_ ∧ _))

/-! ## One stretch -/

theorem observeLane_coded {lane : LaneLog} (h : LaneCoded lane) (c : CodeCoverage) (ts : ℤ) :
    c.observeLane ts lane =
      if lane.requests = 0 then c else { c with since := c.since.or (some ts) } := by
  unfold CodeCoverage.observeLane
  split
  · rfl
  · exact if_pos h

theorem observeLane_uncoded {lane : LaneLog} (h : ¬LaneCoded lane) (c : CodeCoverage) (ts : ℤ) :
    c.observeLane ts lane = ⟨none, true⟩ := by
  have some_requests : lane.requests ≠ 0 := fun none => h (none.trans_le (Nat.zero_le _))
  unfold CodeCoverage.observeLane
  rw [if_neg some_requests]
  exact if_neg h

/-- A stretch with all its codes sets the stamp where there is none yet. -/
theorem observe_coded {log : LogDelta} (h : Coded log) (c : CodeCoverage) (ts : ℤ) :
    c.observe ts log =
      { c with since := if HasRequests log then c.since.or (some ts) else c.since } := by
  unfold CodeCoverage.observe
  rw [observeLane_coded h.1, observeLane_coded h.2]
  by_cases hp : log.publicLane.requests = 0
  · by_cases ht : log.trustedLane.requests = 0
    · rw [if_pos hp, if_pos ht, if_neg (by rintro (h | h) <;> contradiction)]
    · rw [if_pos hp, if_neg ht, if_pos (show HasRequests log from .inr ht)]
  · rw [if_neg hp, if_pos (show HasRequests log from .inl hp)]
    by_cases ht : log.trustedLane.requests = 0
    · rw [if_pos ht]
    · rw [if_neg ht]
      cases c.since with
      | none => rfl
      | some s => rfl

/-- The stamp after a stretch in which a request has no code: none, or the time of the stretch
itself where the trusted lane, which is looked at last, has requests and all of their codes. -/
def stampOf (e : ℤ × LogDelta) : Option ℤ :=
  if e.2.trustedLane.requests ≠ 0 ∧ LaneCoded e.2.trustedLane then some e.1 else none

theorem observe_uncoded {log : LogDelta} (h : ¬Coded log) (c : CodeCoverage) (ts : ℤ) :
    c.observe ts log = ⟨stampOf (ts, log), true⟩ := by
  unfold CodeCoverage.observe stampOf
  dsimp only
  by_cases trusted : LaneCoded log.trustedLane
  · have untrusted : ¬LaneCoded log.publicLane := fun coded => h ⟨coded, trusted⟩
    rw [observeLane_uncoded untrusted, observeLane_coded trusted]
    by_cases ht : log.trustedLane.requests = 0
    · rw [if_pos ht, if_neg fun h => h.1 ht]
    · rw [if_neg ht, if_pos ⟨ht, trusted⟩]
      rfl
  · rw [observeLane_uncoded trusted, if_neg fun h => trusted h.2]

/-! ## A range -/

def coverageFrom (c : CodeCoverage) (entries : List (ℤ × LogDelta)) : CodeCoverage :=
  entries.foldl (fun c e => c.observe e.1 e.2) c

/-- What is known of the codes after a range. -/
def coverage (entries : List (ℤ × LogDelta)) : CodeCoverage :=
  (entries.foldl GatewayLog.fold {}).coverage

theorem coverage_eq (entries : List (ℤ × LogDelta)) : coverage entries = coverageFrom {} entries := by
  have general : ∀ g : GatewayLog,
      (entries.foldl GatewayLog.fold g).coverage = coverageFrom g.coverage entries := by
    induction entries with
    | nil => exact fun g => rfl
    | cons e entries ih => exact fun g => ih (g.fold e)
  exact general {}

/-- When the first requests of some stretches were. -/
def firstRequests (entries : List (ℤ × LogDelta)) : Option ℤ :=
  (entries.find? fun e => decide (HasRequests e.2)).map Prod.fst

theorem coverageFrom_coded {entries : List (ℤ × LogDelta)} (h : ∀ e ∈ entries, Coded e.2)
    (c : CodeCoverage) :
    coverageFrom c entries = { c with since := c.since.or (firstRequests entries) } := by
  induction entries generalizing c with
  | nil =>
      show c = { c with since := c.since.or none }
      rw [Option.or_none]
  | cons e entries ih =>
      show coverageFrom (c.observe e.1 e.2) entries = _
      rw [ih (fun e' h' => h e' (List.mem_cons_of_mem _ h')),
        observe_coded (h e List.mem_cons_self)]
      unfold firstRequests
      rw [List.find?_cons]
      by_cases requests : HasRequests e.2
      · rw [if_pos requests, decide_eq_true requests, Option.or_assoc]
        rfl
      · rw [if_neg requests, decide_eq_false requests]

/-- A range has all of its codes, or there is a last stretch that has not. -/
theorem coded_or_last (entries : List (ℤ × LogDelta)) : (∀ e ∈ entries, Coded e.2) ∨
    ∃ before e after, entries = before ++ e :: after ∧ ¬Coded e.2 ∧ ∀ e' ∈ after, Coded e'.2 := by
  induction entries with
  | nil => exact .inl fun _ h => absurd h List.not_mem_nil
  | cons e entries ih =>
      rcases ih with all | ⟨before, e', after, rfl, uncoded, coded⟩
      · by_cases he : Coded e.2
        · exact .inl (List.forall_mem_cons.mpr ⟨he, all⟩)
        · exact .inr ⟨[], e, entries, rfl, he, all⟩
      · exact .inr ⟨e :: before, e', after, rfl, uncoded, coded⟩

theorem coverage_all {entries : List (ℤ × LogDelta)} (h : ∀ e ∈ entries, Coded e.2) :
    coverage entries = ⟨firstRequests entries, false⟩ := by
  rw [coverage_eq, coverageFrom_coded h]
  rfl

theorem coverage_last {before after : List (ℤ × LogDelta)} {e : ℤ × LogDelta}
    (uncoded : ¬Coded e.2) (coded : ∀ e' ∈ after, Coded e'.2) :
    coverage (before ++ e :: after) = ⟨(stampOf e).or (firstRequests after), true⟩ := by
  rw [coverage_eq]
  unfold coverageFrom
  rw [List.foldl_append, List.foldl_cons, observe_uncoded uncoded]
  exact coverageFrom_coded coded _

/-! ## The promise -/

/-- The label says `full` where every request has its code, and from the stamp of a partial range
on every request has. -/
structure Honest (entries : List (ℤ × LogDelta)) : Prop where
  full : (coverage entries).label = "full" ↔ ∀ e ∈ entries, Coded e.2
  partly : ∀ s, (coverage entries).codesSince = some s → ∀ e ∈ entries, s ≤ e.1 → Coded e.2

/-- The last stretch with a request that has no code has trusted requests that all have theirs,
or there are requests in a later stretch of the same time. -/
def StampedTooEarly (entries : List (ℤ × LogDelta)) : Prop :=
  ∃ before e after, entries = before ++ e :: after ∧ ¬Coded e.2 ∧ (∀ e' ∈ after, Coded e'.2) ∧
    ((e.2.trustedLane.requests ≠ 0 ∧ LaneCoded e.2.trustedLane) ∨
      ∃ e' ∈ after, e'.1 = e.1 ∧ HasRequests e'.2)

theorem label_full (entries : List (ℤ × LogDelta)) :
    (coverage entries).label = "full" ↔ ∀ e ∈ entries, Coded e.2 := by
  rcases coded_or_last entries with all | ⟨before, e, after, rfl, uncoded, coded⟩
  · rw [coverage_all all]
    exact iff_of_true rfl all
  · rw [coverage_last uncoded coded]
    refine iff_of_false ?_ fun all => uncoded (all e (by simp))
    unfold CodeCoverage.label
    rw [if_pos rfl]
    split
    · decide
    · decide

/-- The stamp of a range is the time of the last stretch without all of its codes exactly when
that stretch sets it itself, or one of the same time after it. -/
theorem stamp_at_last {e : ℤ × LogDelta} {after : List (ℤ × LogDelta)}
    (ordered : (e :: after).Pairwise fun e e' => e.1 ≤ e'.1) :
    (∃ s, (stampOf e).or (firstRequests after) = some s ∧ s ≤ e.1) ↔
      (e.2.trustedLane.requests ≠ 0 ∧ LaneCoded e.2.trustedLane) ∨
        ∃ e' ∈ after, e'.1 = e.1 ∧ HasRequests e'.2 := by
  obtain ⟨later, ordered⟩ := List.pairwise_cons.mp ordered
  unfold stampOf
  by_cases itself : e.2.trustedLane.requests ≠ 0 ∧ LaneCoded e.2.trustedLane
  · rw [if_pos itself]
    exact iff_of_true ⟨e.1, rfl, le_refl _⟩ (.inl itself)
  · rw [if_neg itself, or_iff_right itself, Option.none_or]
    unfold firstRequests
    constructor
    · rintro ⟨s, found, le⟩
      obtain ⟨e', he', rfl⟩ := Option.map_eq_some_iff.mp found
      have mem := List.mem_of_find?_eq_some he'
      have requests := List.find?_some he'
      exact ⟨e', mem, le_antisymm le (later e' mem), of_decide_eq_true requests⟩
    · rintro ⟨e', mem, same, requests⟩
      have exist : (after.find? fun e => decide (HasRequests e.2)).isSome := by
        rw [List.find?_isSome]
        exact ⟨e', mem, decide_eq_true requests⟩
      obtain ⟨first, hfirst⟩ := Option.isSome_iff_exists.mp exist
      refine ⟨first.1, by rw [hfirst]; rfl, ?_⟩
      -- the first with requests is not later than this one
      obtain ⟨_, front, back, split, none_before⟩ := List.find?_eq_some_iff_append.mp hfirst
      rw [split] at mem ordered
      rcases List.mem_append.mp mem with h | h
      · have := none_before e' h
        simp [requests] at this
      · rcases List.mem_cons.mp h with rfl | h
        · exact same.le
        · have := (List.pairwise_cons.mp (List.pairwise_append.mp ordered).2.1).1 e' h
          omega

/-- There is one last stretch without all of its codes. -/
theorem last_unique {before before' after after' : List (ℤ × LogDelta)} {e e' : ℤ × LogDelta}
    (same : before ++ e :: after = before' ++ e' :: after') (uncoded : ¬Coded e.2)
    (uncoded' : ¬Coded e'.2) (coded : ∀ x ∈ after, Coded x.2) (coded' : ∀ x ∈ after', Coded x.2) :
    e = e' ∧ after = after' := by
  rcases List.append_eq_append_iff.mp same with ⟨more, _, rest⟩ | ⟨more, _, rest⟩
  · cases more with
    | nil => exact List.cons.inj rest
    | cons x more =>
        rw [(List.cons.inj rest).2] at coded
        exact absurd (coded e' (List.mem_append_right _ List.mem_cons_self)) uncoded'
  · cases more with
    | nil =>
        obtain ⟨h, h'⟩ := List.cons.inj rest
        exact ⟨h.symm, h'.symm⟩
    | cons x more =>
        rw [(List.cons.inj rest).2] at coded'
        exact absurd (coded' e (List.mem_append_right _ List.mem_cons_self)) uncoded

/-- The label is honest exactly where the stamp is not set too early. -/
theorem code_label_honest_iff (entries : List (ℤ × LogDelta))
    (ordered : entries.Pairwise fun e e' => e.1 ≤ e'.1) :
    Honest entries ↔ ¬StampedTooEarly entries := by
  rcases coded_or_last entries with all | ⟨before, e, after, rfl, uncoded, coded⟩
  · refine iff_of_true ⟨label_full entries, fun s _ e he _ => all e he⟩ ?_
    rintro ⟨before, e, after, rfl, uncoded, _⟩
    exact uncoded (all e (by simp))
  · obtain ⟨_, ordered', earlier⟩ := List.pairwise_append.mp ordered
    have since : (coverage (before ++ e :: after)).codesSince =
        (stampOf e).or (firstRequests after) := by
      rw [coverage_last uncoded coded]
      unfold CodeCoverage.codesSince
      cases (stampOf e).or (firstRequests after) with
      | none => rfl
      | some s => rfl
    have too_early : StampedTooEarly (before ++ e :: after) ↔
        ∃ s, (stampOf e).or (firstRequests after) = some s ∧ s ≤ e.1 := by
      rw [stamp_at_last ordered']
      constructor
      · rintro ⟨before', e', after', same, uncoded', coded', stamped⟩
        obtain ⟨rfl, rfl⟩ := last_unique same uncoded uncoded' coded coded'
        exact stamped
      · exact fun stamped => ⟨before, e, after, rfl, uncoded, coded, stamped⟩
    rw [too_early]
    constructor
    · rintro honest ⟨s, stamped, le⟩
      exact uncoded (honest.partly s (since.trans stamped) e (by simp) le)
    · intro late
      refine ⟨label_full _, fun s stamped e' he' le => ?_⟩
      have after_last : e.1 < s := by
        by_contra h
        exact late ⟨s, since.symm.trans stamped, not_lt.mp h⟩
      rcases List.mem_append.mp he' with h | h
      · have := earlier e' h e List.mem_cons_self
        omega
      · rcases List.mem_cons.mp h with rfl | h
        · omega
        · exact coded e' h

/-- A lane with some requests, some of them with a code. -/
def someLane (requests coded : ℕ) : LaneLog where
  requests := requests
  byKeyStatus := if coded = 0 then ∅ else {("acme", {(429, coded)})}

/-- Requests without codes, and then requests that have theirs. -/
theorem label_after_upgrade :
    Honest [(0, { publicLane := someLane 3 0 }), (600, { publicLane := someLane 2 2 })] := by
  refine (code_label_honest_iff _ (by decide)).mpr ?_
  rintro ⟨before, e, after, split, uncoded, coded, stamped⟩
  have uncoded₀ : ¬Coded { publicLane := someLane 3 0 } := by decide +kernel
  have coded₁ : Coded { publicLane := someLane 2 2 } := by decide +kernel
  have last := last_unique ((List.nil_append _).trans split) uncoded₀ uncoded
    (fun x hx => (List.mem_singleton.mp hx) ▸ coded₁) coded
  obtain ⟨rfl, rfl⟩ := last
  rcases stamped with ⟨trusted, _⟩ | ⟨e', he', same, _⟩
  · exact trusted rfl
  · rw [List.mem_singleton.mp he'] at same
    exact absurd same (by decide)

/-- A stretch in which the public requests have no codes and the trusted one has its own. -/
def mixedStretch : LogDelta where
  publicLane := someLane 3 0
  trustedLane := someLane 1 1

/-- The stamp promises the codes of a stretch that has not all of them. -/
theorem mixed_stretch_promised : ¬Honest [(600, mixedStretch)] := by
  intro honest
  have uncoded : ¬Coded mixedStretch := by decide +kernel
  have stamped : (coverage [(600, mixedStretch)]).codesSince = some 600 := by decide +kernel
  exact uncoded (honest.partly 600 stamped _ List.mem_cons_self (le_refl _))

end Lss.Analysis.CodeLabels
