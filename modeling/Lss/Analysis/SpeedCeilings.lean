import Lss.Model.Headroom
import Mathlib.Data.String.Basic

/-!
# What the speed ceiling promises

The speed ceiling says up to how many users at once each still gets the target. It is read off
the highest level that meets the target, so it keeps its word on a curve that falls under the
target once and stays there. A level that fails below one that passes is passed over, and where
no level meets the target the ceiling is the end of the growth, whatever each user gets there.
-/

set_option autoImplicit false

namespace Lss.Analysis.SpeedCeilings

open Lss.Model

/-! ## Levels and the target -/

/-- The levels that count as evidence and at which each user gets the target. -/
def Meets (i : HeadroomInputs) (r : CurveRow) : Prop :=
  r ∈ i.curve ∧ qualifies r (liveSamples i.curve) ∧
    ∃ t, r.perRequestTokS = some t ∧ i.minTokSPerUser ≤ t

/-- The levels that count as evidence and at which each user gets less. -/
def Fails (i : HeadroomInputs) (r : CurveRow) : Prop :=
  r ∈ i.curve ∧ qualifies r (liveSamples i.curve) ∧
    ∃ t, r.perRequestTokS = some t ∧ t < i.minTokSPerUser

/-- The highest level at which the target is met, and that there is none. -/
theorem byTarget_eq_some {i : HeadroomInputs} (htarget : 0 < i.minTokSPerUser) {t : ℕ} :
    byTarget i = some t ↔
      (∃ r, Meets i r ∧ r.running = t) ∧ ∀ r, Meets i r → r.running ≤ t := by
  have hmem : ∀ n, n ∈ ((i.curve.filter fun r => qualifies r (liveSamples i.curve)).filter
      fun r => r.perRequestTokS.any fun t => i.minTokSPerUser ≤ t).map CurveRow.running ↔
      ∃ r, Meets i r ∧ r.running = n := by
    intro n
    simp only [List.mem_map, List.mem_filter, Option.any_eq_true, decide_eq_true_eq, Meets,
      and_assoc]
  unfold byTarget
  rw [if_pos htarget, List.max?_eq_some_iff, hmem]
  refine and_congr_right fun _ => ⟨fun h r hr => h _ ((hmem _).mpr ⟨r, hr, rfl⟩), ?_⟩
  rintro h n hn
  obtain ⟨r, hr, rfl⟩ := (hmem n).mp hn
  exact h r hr

theorem byTarget_eq_none {i : HeadroomInputs} (htarget : 0 < i.minTokSPerUser) :
    byTarget i = none ↔ ∀ r, ¬ Meets i r := by
  unfold byTarget
  rw [if_pos htarget, List.max?_eq_none_iff, List.map_eq_nil_iff, List.filter_eq_nil_iff]
  simp only [List.mem_filter, Option.any_eq_true, decide_eq_true_eq, Meets]
  exact ⟨fun h r hr => h r ⟨hr.1, hr.2.1⟩ hr.2.2, fun h r hr ht => h r ⟨hr.1, hr.2, ht⟩⟩

/-! ## The promise -/

/-- The ceiling is named from the target: its text says what each user still gets. -/
def NamesTarget (i : HeadroomInputs) (c : Ceiling) (cap : ℕ) : Prop :=
  c.users = some cap ∧ c.why = targetWhy i.minTokSPerUser cap

/-- What the speed ceiling of an estimate says is so: no level up to a cap that is named from
the target fails it, and no cap lies above a level that fails. -/
def Kept (i : HeadroomInputs) : Prop :=
  ∀ c ∈ (estimate i).ceilings, c.kind = .speed →
    (∀ cap, NamesTarget i c cap → ∀ r ∈ i.curve, qualifies r (liveSamples i.curve) →
      r.running ≤ cap → ∀ t, r.perRequestTokS = some t → i.minTokSPerUser ≤ t) ∧
    ∀ cap, c.users = some cap → ∀ r, Fails i r → cap ≤ r.running

/-- When it is so. Where growth ends at a level, each level that fails is at that level or
above, or it is above all those that pass, of which there is one. Where growth goes on, the
highest level passes, or no level that fails is below one that passes. -/
def FailsOnlyAbove (i : HeadroomInputs) : Prop :=
  match i.saturation.filter fun _ => solid i with
  | some (.after users _ _) =>
    ∀ r, Fails i r →
      users ≤ r.running ∨ ((∃ q, Meets i q) ∧ ∀ q, Meets i q → q.running < r.running)
  | some (.stillGrowing users _) =>
    (∃ q, Meets i q ∧ (measuredTop i).getD users ≤ q.running) ∨
      ∀ r q, Fails i r → Meets i q → q.running < r.running
  | _ => True

/-! ## The speed ceiling among the three -/

theorem ceilings_estimate (i : HeadroomInputs) :
    (estimate i).ceilings = [slotsCeiling i, memoryCeiling i, speedCeiling i] := by
  unfold estimate
  dsimp only
  split <;> rfl

theorem kind_slotsCeiling (i : HeadroomInputs) : (slotsCeiling i).kind = .slots := by
  unfold slotsCeiling
  split <;> rfl

theorem kind_memoryCeiling (i : HeadroomInputs) : (memoryCeiling i).kind = .memory := by
  unfold memoryCeiling
  dsimp only
  split
  · split <;> rfl
  · rfl

theorem noSpeedCeiling_spec (i : HeadroomInputs) :
    (noSpeedCeiling i).kind = .speed ∧ (noSpeedCeiling i).users = none := by
  unfold noSpeedCeiling
  dsimp only
  split <;> exact ⟨rfl, rfl⟩

theorem kind_speedCeiling (i : HeadroomInputs) : (speedCeiling i).kind = .speed := by
  unfold speedCeiling
  dsimp only
  split
  · rfl
  · split <;> rfl
  · exact (noSpeedCeiling_spec i).1

/-- A text that speaks of the target is not the one about the end of the growth. -/
theorem targetWhy_ne_settledWhy (goal total : ℚ) (cap users : ℕ) :
    targetWhy goal cap ≠ settledWhy users total := by
  intro h
  have hhead : (targetWhy goal cap).toList.head? = (settledWhy users total).toList.head? := by
    rw [h]
  unfold targetWhy settledWhy at hhead
  simp only [String.toList_append, List.head?_append] at hhead
  rw [show "each user still gets ".toList.head? = some 'e' from rfl,
    show "total speed stops growing after ".toList.head? = some 't' from rfl] at hhead
  simp only [Option.some_or] at hhead
  exact absurd hhead (by decide)

/-- A ceiling keeps its word when each level that fails is above a cap that the target names,
and at any other cap or above it. -/
theorem kept_iff {i : HeadroomInputs} :
    Kept i ↔
      (∀ cap, NamesTarget i (speedCeiling i) cap → ∀ r, Fails i r → cap < r.running) ∧
        ∀ cap, (speedCeiling i).users = some cap → ∀ r, Fails i r → cap ≤ r.running := by
  unfold Kept
  rw [ceilings_estimate]
  constructor
  · intro h
    obtain ⟨hnamed, hcap⟩ := h (speedCeiling i) (by simp) (kind_speedCeiling i)
    refine ⟨fun cap hn r hr => ?_, hcap⟩
    obtain ⟨hmem, hq, t, ht, hlt⟩ := hr
    by_contra hle
    exact absurd hlt (not_lt.mpr (hnamed cap hn r hmem hq (not_lt.mp hle) t ht))
  · rintro ⟨hnamed, hcap⟩ c hc hkind
    have hspeed : c = speedCeiling i := by
      simp only [List.mem_cons, List.not_mem_nil, or_false] at hc
      rcases hc with rfl | rfl | rfl
      · cases (kind_slotsCeiling i).symm.trans hkind
      · cases (kind_memoryCeiling i).symm.trans hkind
      · rfl
    subst hspeed
    refine ⟨fun cap hn r hmem hq hle t ht => ?_, hcap⟩
    by_contra hlt
    exact absurd (hnamed cap hn r ⟨hmem, hq, t, ht, not_le.mp hlt⟩) (not_lt.mpr hle)

/-- A ceiling that the target names is kept when each level that fails is above it. -/
theorem kept_iff_of_named {i : HeadroomInputs} {cap : ℕ}
    (h : NamesTarget i (speedCeiling i) cap) : Kept i ↔ ∀ r, Fails i r → cap < r.running := by
  rw [kept_iff]
  refine ⟨fun hkept => hkept.1 cap h, fun habove => ⟨?_, ?_⟩⟩
  · rintro other ⟨hother, -⟩
    cases h.1.symm.trans hother
    exact habove
  · intro other hother r hr
    cases h.1.symm.trans hother
    exact (habove r hr).le

/-- One at the end of the growth is kept when no level that fails is below it. -/
theorem kept_iff_of_settled {i : HeadroomInputs} {users : ℕ} {total : ℚ}
    (husers : (speedCeiling i).users = some users)
    (hwhy : (speedCeiling i).why = settledWhy users total) :
    Kept i ↔ ∀ r, Fails i r → users ≤ r.running := by
  rw [kept_iff]
  refine ⟨fun hkept => hkept.2 users husers, fun hbelow => ⟨?_, ?_⟩⟩
  · rintro other ⟨-, hother⟩
    exact absurd (hother.symm.trans hwhy) (targetWhy_ne_settledWhy _ _ _ _)
  · intro other hother
    cases husers.symm.trans hother
    exact hbelow

theorem kept_of_none {i : HeadroomInputs} (h : (speedCeiling i).users = none) : Kept i := by
  rw [kept_iff]
  unfold NamesTarget
  rw [h]
  refine ⟨?_, ?_⟩
  · rintro cap ⟨hc, -⟩
    cases hc
  · rintro cap hc
    cases hc

/-! ## When the promise is kept -/

/-- Where growth ends at a level. -/
theorem kept_iff_of_after {i : HeadroomInputs} (htarget : 0 < i.minTokSPerUser) {users : ℕ}
    {total : ℚ} {fromBench : Bool}
    (hs : (i.saturation.filter fun _ => solid i) = some (.after users total fromBench)) :
    Kept i ↔ ∀ r, Fails i r →
      users ≤ r.running ∨ ((∃ q, Meets i q) ∧ ∀ q, Meets i q → q.running < r.running) := by
  have hceiling : speedCeiling i =
      { kind := .speed
        users := some (((byTarget i).map fun t => min t users).getD users)
        why :=
          if (byTarget i).any fun t => t < users then
            targetWhy i.minTokSPerUser (((byTarget i).map fun t => min t users).getD users)
          else settledWhy users total } := by
    unfold speedCeiling
    rw [hs]
  cases hb : byTarget i with
  | none =>
    have hnone := (byTarget_eq_none htarget).mp hb
    rw [hb] at hceiling
    have husers : (speedCeiling i).users = some users := by
      rewrite [hceiling]
      rfl
    have hwhy : (speedCeiling i).why = settledWhy users total := by
      rewrite [hceiling]
      rfl
    rw [kept_iff_of_settled husers hwhy]
    refine forall₂_congr fun r _ => ⟨.inl, ?_⟩
    rintro (hle | ⟨⟨q, hq⟩, -⟩)
    · exact hle
    · exact absurd hq (hnone q)
  | some t =>
    obtain ⟨⟨top, htop, rfl⟩, hmax⟩ := (byTarget_eq_some htarget).mp hb
    rw [hb] at hceiling
    dsimp only [Option.map_some, Option.getD_some, Option.any_some] at hceiling
    by_cases hlt : top.running < users
    · -- the cap is the highest level that passes
      rw [min_eq_left hlt.le, if_pos (by simpa using hlt)] at hceiling
      rw [kept_iff_of_named ⟨by rw [hceiling], by rw [hceiling]⟩]
      refine forall₂_congr fun r _ => ⟨fun habove => .inr ⟨⟨top, htop⟩, ?_⟩, ?_⟩
      · exact fun q hq => lt_of_le_of_lt (hmax q hq) habove
      · rintro (hle | ⟨-, hall⟩)
        · exact lt_of_lt_of_le hlt hle
        · exact hall top htop
    · -- the cap is the end of the growth
      rw [min_eq_right (not_lt.mp hlt), if_neg (by simpa using hlt)] at hceiling
      rw [kept_iff_of_settled (by rw [hceiling]) (by rw [hceiling])]
      refine forall₂_congr fun r _ => ⟨.inl, ?_⟩
      rintro (hle | ⟨-, hall⟩)
      · exact hle
      · exact (not_lt.mp hlt).trans (hall top htop).le

/-- Where growth goes on to the most that was measured. -/
theorem kept_iff_of_stillGrowing {i : HeadroomInputs} (htarget : 0 < i.minTokSPerUser)
    {users : ℕ} {total : ℚ}
    (hs : (i.saturation.filter fun _ => solid i) = some (.stillGrowing users total)) :
    Kept i ↔ (∃ q, Meets i q ∧ (measuredTop i).getD users ≤ q.running) ∨
      ∀ r q, Fails i r → Meets i q → q.running < r.running := by
  have hceiling : speedCeiling i =
      ((byTarget i).filter (· < (measuredTop i).getD users)).elim
        { kind := .speed, users := none, why := growingWhy users }
        fun t => { kind := .speed, users := some t, why := targetWhy i.minTokSPerUser t } := by
    unfold speedCeiling
    rewrite [hs]
    dsimp only
    cases (byTarget i).filter (· < (measuredTop i).getD users) with
    | none => rfl
    | some t => rfl
  cases hb : byTarget i with
  | none =>
    have hnone := (byTarget_eq_none htarget).mp hb
    rw [hb, Option.filter_none, Option.elim_none] at hceiling
    exact iff_of_true (kept_of_none (by rw [hceiling])) (.inr fun r q _ hq => absurd hq (hnone q))
  | some t =>
    obtain ⟨⟨top, htop, rfl⟩, hmax⟩ := (byTarget_eq_some htarget).mp hb
    rw [hb] at hceiling
    by_cases hlt : top.running < (measuredTop i).getD users
    · rw [Option.filter_some_pos (by simpa using hlt), Option.elim_some] at hceiling
      rw [kept_iff_of_named ⟨by rw [hceiling], by rw [hceiling]⟩]
      constructor
      · exact fun habove => .inr fun r q hr hq => lt_of_le_of_lt (hmax q hq) (habove r hr)
      · rintro (⟨q, hq, hle⟩ | hall) r hr
        · exact absurd (lt_of_lt_of_le hlt hle) (not_lt.mpr (hmax q hq))
        · exact hall r top hr htop
    · rw [Option.filter_some_neg (by simpa using hlt), Option.elim_none] at hceiling
      exact iff_of_true (kept_of_none (by rw [hceiling])) (.inl ⟨top, htop, not_lt.mp hlt⟩)

/-- For every curve and target the speed ceiling keeps its promise exactly when no level that
fails is hidden below one that passes, or below the end of the growth. -/
theorem speed_ceiling_kept_iff (i : HeadroomInputs) (htarget : 0 < i.minTokSPerUser) :
    Kept i ↔ FailsOnlyAbove i := by
  have hnone : speedCeiling i = noSpeedCeiling i → Kept i := by
    intro h
    exact kept_of_none (by rw [h]; exact (noSpeedCeiling_spec i).2)
  unfold FailsOnlyAbove
  cases hs : i.saturation.filter fun _ => solid i with
  | none =>
    refine iff_of_true (hnone ?_) trivial
    unfold speedCeiling
    rw [hs]
  | some s =>
    cases s with
    | notEnough =>
      refine iff_of_true (hnone ?_) trivial
      unfold speedCeiling
      rw [hs]
    | after users total fromBench => exact kept_iff_of_after htarget hs
    | stillGrowing users total => exact kept_iff_of_stillGrowing htarget hs

/-- A benchmark in which four users at once were each faster than two. -/
def dippingCurve : List CurveRow :=
  [(1, 100, 100), (2, 80, 40), (4, 240, 60), (8, 320, 40), (16, 320, 20)].map fun p =>
    { running := p.1
      samples := 1
      tokS := some p.2.1
      perRequestTokS := some p.2.2
      source := "bench" }

/-- The estimate for that benchmark, with a target. -/
def dippingInputs (target : ℚ) : HeadroomInputs :=
  { slots := 32
    curve := dippingCurve
    saturation := some (saturationOf dippingCurve none)
    minTokSPerUser := target }

/-- With a target of 90, which only one user alone gets, the ceiling is that one. -/
theorem ninety_each_is_kept :
    0 < (dippingInputs 90).minTokSPerUser ∧ Kept (dippingInputs 90) := by
  have htarget : 0 < (dippingInputs 90).minTokSPerUser := by decide +kernel
  refine ⟨htarget, (speed_ceiling_kept_iff (dippingInputs 90) htarget).mpr ?_⟩
  have hbest : byTarget (dippingInputs 90) = some 1 := by decide +kernel
  obtain ⟨⟨alone, halone, -⟩, hmax⟩ := (byTarget_eq_some htarget).mp hbest
  have hone : ∀ r ∈ dippingCurve, r.running ≤ 1 → r.perRequestTokS = some 100 := by
    decide +kernel
  unfold FailsOnlyAbove
  rw [show ((dippingInputs 90).saturation.filter fun _ => solid (dippingInputs 90)) =
    some (.after 8 320 true) by decide +kernel]
  rintro r ⟨hr, -, t, ht, hlt⟩
  have habove : 1 < r.running := by
    by_contra hle
    cases ht.symm.trans (hone r hr (not_lt.mp hle))
    exact absurd hlt (by decide +kernel)
  exact .inr ⟨⟨alone, halone⟩, fun q hq => lt_of_le_of_lt (hmax q hq) habove⟩

/-- With a target of 50 the ceiling is four users, and two get 40 each; with one of 200, which
nobody gets, it is eight. -/
theorem a_failing_level_is_passed_over :
    NamesTarget (dippingInputs 50) (speedCeiling (dippingInputs 50)) 4 ∧
      ¬ Kept (dippingInputs 50) ∧
      (speedCeiling (dippingInputs 200)).users = some 8 ∧
      (∀ r ∈ dippingCurve, ¬ Meets (dippingInputs 200) r) ∧ ¬ Kept (dippingInputs 200) := by
  have hnamed : NamesTarget (dippingInputs 50) (speedCeiling (dippingInputs 50)) 4 := by
    constructor <;> decide +kernel
  have hcap : (speedCeiling (dippingInputs 200)).users = some 8 := by decide +kernel
  refine ⟨hnamed, fun h => ?_, hcap, ?_, fun h => ?_⟩
  · have hlt := (kept_iff.mp h).1 4 hnamed
      { running := 2, samples := 1, tokS := some 80, perRequestTokS := some 40,
        source := "bench" } ⟨by decide +kernel, by decide +kernel, 40, rfl, by decide +kernel⟩
    exact absurd hlt (by decide)
  · rintro r - hr
    have hnone : byTarget (dippingInputs 200) = none := by decide +kernel
    exact (byTarget_eq_none (by decide +kernel)).mp hnone r hr
  · have hle := (kept_iff.mp h).2 8 hcap
      { running := 1, samples := 1, tokS := some 100, perRequestTokS := some 100,
        source := "bench" } ⟨by decide +kernel, by decide +kernel, 100, rfl, by decide +kernel⟩
    exact absurd hle (by decide)

end Lss.Analysis.SpeedCeilings
