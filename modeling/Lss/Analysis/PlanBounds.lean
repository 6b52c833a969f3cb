import Lss.Model.SeriesRequest

/-!
# Plans within the machine's integers

The plan of a request is aligned, short and reaches past the present, and it is read from a tier
that is kept long enough. On the machine it is that plan exactly when the ends of the answer, and
the sum of its range and its step, fit in 64 bits: a range is cut to what is kept before it is
computed with, a step is not.
-/

set_option autoImplicit false

namespace Lss.Analysis.PlanBounds

open Lss.Model Lss.Library.Bounded Lss.Library.Buckets

/-! ## The parts of a plan -/

/-- The range a request is answered for: at least a minute, at most what is kept. -/
def cutRange (rangeS : ℤ) (keep : Retention) : ℤ := max 60 (min rangeS (max keep.m10 60))

/-- The step that is asked for, or the one that keeps the answer short. -/
def wanted (r : ℤ) (step : Option ℤ) : ℤ :=
  max (max (step.getD 1) ((r + maxPoints - 1) / maxPoints)) 1

/-- The wanted step as a multiple of the resolution of the tier that is read. -/
def stepFor (r : ℤ) (step : Option ℤ) (keep : Retention) : ℤ :=
  roundUp (planTier (wanted r step) r keep).res (wanted r step)

theorem le_cutRange (rangeS : ℤ) (keep : Retention) : 60 ≤ cutRange rangeS keep := le_max_left _ _

theorem res_pos (tier : Tier) : 0 < tier.res := by cases tier <;> decide

theorem wanted_pos (r : ℤ) (step : Option ℤ) : 0 < wanted r step := by
  unfold wanted
  omega

theorem le_wanted_mul (r : ℤ) (step : Option ℤ) : r ≤ 600 * wanted r step := by
  have points : ((maxPoints : ℕ) : ℤ) = 600 := rfl
  unfold wanted
  rw [points]
  omega

theorem stepFor_pos (r : ℤ) (step : Option ℤ) (keep : Retention) : 0 < stepFor r step keep :=
  roundUp_pos (res_pos _) (wanted_pos r step)

theorem wanted_le_stepFor (r : ℤ) (step : Option ℤ) (keep : Retention) :
    wanted r step ≤ stepFor r step keep := le_roundUp (res_pos _) _

/-- The cells needed are at most as many as an answer may have. -/
theorem points_eq {r s : ℤ} (hr : 0 < r) (hs : 0 < s) (short : r ≤ 600 * s) :
    1 ≤ (r + s - 1) / s ∧ (r + s - 1) / s ≤ 600 := by
  constructor
  · rw [Int.le_ediv_iff_mul_le hs]
    omega
  · have below : (r + s - 1) / s < 601 := by
      rw [Int.ediv_lt_iff_lt_mul hs]
      omega
    omega

theorem points_mul {r s : ℤ} (hr : 0 < r) (hs : 0 < s) (short : r ≤ 600 * s) :
    ((max 1 (min ((r + s - 1) / s).toNat maxPoints) : ℕ) : ℤ) * s = roundUp s r := by
  have bounds := points_eq hr hs short
  have points : ((max 1 (min ((r + s - 1) / s).toNat maxPoints) : ℕ) : ℤ) = (r + s - 1) / s := by
    unfold maxPoints
    omega
  rw [points, roundUp_eq]

theorem plan_eq (now rangeS : ℤ) (step : Option ℤ) (keep : Retention) :
    plan now rangeS step keep =
      let r := cutRange rangeS keep
      let s := stepFor r step keep
      ⟨planTier (wanted r step) r keep, r, s, bucket s now + s - roundUp s r,
        max 1 (min ((r + s - 1) / s).toNat maxPoints)⟩ := by
  have short : cutRange rangeS keep ≤ 600 * stepFor (cutRange rangeS keep) step keep := by
    have h₁ := le_wanted_mul (cutRange rangeS keep) step
    have h₂ := wanted_le_stepFor (cutRange rangeS keep) step keep
    omega
  have positive : 0 < cutRange rangeS keep := by
    have := le_cutRange rangeS keep
    omega
  dsimp only
  rw [← points_mul positive (stepFor_pos _ _ _) short]
  unfold stepFor
  rw [roundUp_eq]
  rfl

/-! ## What a plan promises -/

/-- How far back a tier is kept. -/
def kept (keep : Retention) : Tier → ℤ
  | .raw => keep.raw
  | .m1 => keep.m1
  | .m10 => keep.m10

/-- A plan that covers its range: short, aligned, reaching past the present and read from a tier
that is kept long enough, or from the longest. -/
structure Covers (now rangeS : ℤ) (keep : Retention) (p : Plan) : Prop where
  points : 1 ≤ p.points ∧ p.points ≤ 600
  step : 0 < p.stepS ∧ p.tier.res ∣ p.stepS
  start : p.stepS ∣ p.startTs
  reaches : now < p.startTs + p.points * p.stepS
  covers : p.rangeS ≤ p.points * p.stepS
  range : p.rangeS = cutRange rangeS keep
  tier : p.rangeS ≤ kept keep p.tier ∨ p.tier = .m10

theorem planTier_kept (want r : ℤ) (keep : Retention) :
    r ≤ kept keep (planTier want r keep) ∨ planTier want r keep = .m10 := by
  unfold planTier
  split
  · rename_i h
    exact Or.inl (h.2.trans (min_le_right _ _))
  · split
    · rename_i h
      exact Or.inl h.2
    · exact Or.inr rfl

theorem plan_covers (now rangeS : ℤ) (step : Option ℤ) (keep : Retention) :
    Covers now rangeS keep (plan now rangeS step keep) := by
  rw [plan_eq]
  dsimp only
  generalize hr : cutRange rangeS keep = r
  have short : r ≤ 600 * stepFor r step keep := by
    have h₁ := le_wanted_mul r step
    have h₂ := wanted_le_stepFor r step keep
    omega
  have positive : 0 < r := by
    have := le_cutRange rangeS keep
    omega
  have hs := stepFor_pos r step keep
  have length := points_mul positive hs short
  constructor
  · have bounds := points_eq positive hs short
    show 1 ≤ max 1 (min _ 600) ∧ max 1 (min _ 600) ≤ 600
    omega
  · exact ⟨hs, dvd_roundUp _ _⟩
  · exact dvd_sub (dvd_add (bucket_dvd now) dvd_rfl) (dvd_roundUp _ _)
  · show now < bucket _ now + _ - roundUp _ r + _
    rw [length]
    have past := lt_bucket_add hs now
    omega
  · show r ≤ _
    rw [length]
    exact le_roundUp hs r
  · exact hr.symm
  · exact planTier_kept _ r keep

/-! ## On the machine -/

/-- The sum of the range and the step, the end of the answer and its start fit. -/
def Fits (now rangeS : ℤ) (step : Option ℤ) (keep : Retention) : Prop :=
  let r := cutRange rangeS keep
  let s := stepFor r step keep
  r + s ≤ maxI64 ∧ bucket s now + s ≤ maxI64 ∧ minI64 ≤ bucket s now + s - roundUp s r

/-- Where the range and the step fit together, so do the sums that come before them: the largest
machine integer is seven more than a multiple of ten minutes. -/
theorem wanted_fits {r : ℤ} {step : Option ℤ} {keep : Retention} (hr : 60 ≤ r)
    (h : r + stepFor r step keep ≤ maxI64) :
    r + 600 ≤ maxI64 ∧ wanted r step + (planTier (wanted r step) r keep).res ≤ maxI64 := by
  have h₁ := le_wanted_mul r step
  have h₂ := wanted_le_stepFor r step keep
  have multiple : (planTier (wanted r step) r keep).res ∣ stepFor r step keep := dvd_roundUp _ _
  have top : maxI64 = 9223372036854775807 := by decide
  constructor
  · omega
  · generalize planTier (wanted r step) r keep = tier at multiple ⊢
    cases tier with
    | raw =>
        have res : Tier.raw.res = 5 := rfl
        omega
    | m1 =>
        have res : Tier.m1.res = 60 := rfl
        omega
    | m10 =>
        have res : Tier.m10.res = 600 := rfl
        rw [res] at multiple ⊢
        omega

/-- For all but the largest numbers there is room. -/
theorem fits_of_le {now : ℤ} {step : Option ℤ} {keep : Retention} (rangeS : ℤ)
    (hnow : 0 ≤ now ∧ now ≤ 2 ^ 61) (hstep : ∀ v ∈ step, v ≤ 2 ^ 61) (hkeep : keep.m10 ≤ 2 ^ 61) :
    Fits now rangeS step keep := by
  have top : maxI64 = 9223372036854775807 := by decide
  have bottom : minI64 = -9223372036854775808 := by decide
  have hr : 60 ≤ cutRange rangeS keep ∧ cutRange rangeS keep ≤ 2 ^ 61 := by
    unfold cutRange
    omega
  unfold Fits
  dsimp only
  generalize cutRange rangeS keep = r at hr ⊢
  have hw : wanted r step ≤ 2 ^ 61 := by
    have asked : step.getD 1 ≤ 2 ^ 61 := by
      cases step with
      | none => decide
      | some v => exact hstep v rfl
    have points : ((maxPoints : ℕ) : ℤ) = 600 := rfl
    unfold wanted
    rw [points]
    omega
  have hres : (planTier (wanted r step) r keep).res ≤ 600 := by
    cases planTier (wanted r step) r keep <;> decide
  have hs : 0 < stepFor r step keep ∧ stepFor r step keep < 2 ^ 61 + 600 := by
    have below := roundUp_lt (res_pos (planTier (wanted r step) r keep)) (wanted r step)
    refine ⟨stepFor_pos r step keep, ?_⟩
    unfold stepFor
    omega
  generalize stepFor r step keep = s at hs ⊢
  have past := bucket_le hs.1 now
  have start : 0 ≤ bucket s now := (le_bucket_iff hs.1 (dvd_zero s) now).mpr hnow.1
  have length := roundUp_lt hs.1 r
  omega

theorem i64_bind_eq_ok {α : Type} {v : ℤ} {f : ℤ → Checked α} {a : α} :
    (i64 v >>= f) = .ok a ↔ (minI64 ≤ v ∧ v ≤ maxI64) ∧ f v = .ok a := checked_bind_eq_ok

/-- Two positive numbers are divided, rounding up, where their sum fits. -/
theorem ceilDivI64_bind_eq_ok {α : Type} {a b : ℤ} (ha : 0 < a) (hb : 0 < b) {f : ℤ → Checked α}
    {x : α} : (ceilDivI64 a b >>= f) = .ok x ↔ a + b ≤ maxI64 ∧ f ((a + b - 1) / b) = .ok x := by
  have bottom : minI64 = -9223372036854775808 := by decide
  have quotient : 0 ≤ (a + b - 1) / b ∧ (a + b - 1) / b ≤ a + b - 1 :=
    ⟨Int.ediv_nonneg (by omega) hb.le, Int.ediv_le_self _ (by omega)⟩
  unfold ceilDivI64
  rw [bind_assoc, i64_bind_eq_ok, bind_assoc, i64_bind_eq_ok, i64_bind_eq_ok,
    Int.tdiv_eq_ediv_of_nonneg (by omega)]
  constructor
  · rintro ⟨sum, -, -, rest⟩
    exact ⟨sum.2, rest⟩
  · rintro ⟨sum, rest⟩
    exact ⟨⟨by omega, sum⟩, ⟨by omega, by omega⟩, ⟨by omega, by omega⟩, rest⟩

theorem cellsI64_eq_ok {now r s : ℤ} (hnow : minI64 ≤ now ∧ now ≤ maxI64) (hr : 0 < r) (hs : 0 < s)
    (short : r ≤ 600 * s) (tier : Tier) (p : Plan) :
    cellsI64 now r s tier = .ok p ↔
      (r + s ≤ maxI64 ∧ bucket s now + s ≤ maxI64 ∧ minI64 ≤ bucket s now + s - roundUp s r) ∧
      p = ⟨tier, r, s, bucket s now + s - roundUp s r,
        max 1 (min ((r + s - 1) / s).toNat maxPoints)⟩ := by
  have past := bucket_le hs now
  have next := lt_bucket_add hs now
  have length := le_roundUp hs r
  have length' := roundUp_lt hs r
  have step : s ≤ roundUp s r := Int.le_of_dvd (roundUp_pos hs hr) (dvd_roundUp s r)
  have bottom : minI64 = -9223372036854775808 := by decide
  unfold cellsI64
  change (i64 (bucket s now) >>= _) = _ ↔ _
  rw [i64_bind_eq_ok, i64_bind_eq_ok, ceilDivI64_bind_eq_ok hr hs]
  dsimp only
  rw [points_mul hr hs short, i64_bind_eq_ok, i64_bind_eq_ok]
  constructor
  · rintro ⟨-, stop, sum, -, start, result⟩
    exact ⟨⟨sum, stop.2, start.1⟩, (Except.ok.inj result).symm⟩
  · rintro ⟨⟨sum, stop, start⟩, rfl⟩
    exact ⟨⟨by omega, by omega⟩, ⟨by omega, stop⟩, sum, ⟨by omega, by omega⟩, ⟨start, by omega⟩,
      rfl⟩

theorem stepsI64_eq_ok {now r want : ℤ} (hwant : 0 < want) (tier : Tier) (p : Plan) :
    stepsI64 now r want tier = .ok p ↔
      want + tier.res ≤ maxI64 ∧ cellsI64 now r (roundUp tier.res want) tier = .ok p := by
  have hs := roundUp_pos (res_pos tier) hwant
  have below := roundUp_lt (res_pos tier) want
  have bottom : minI64 = -9223372036854775808 := by decide
  unfold stepsI64
  rw [ceilDivI64_bind_eq_ok hwant (res_pos tier), i64_bind_eq_ok, ← roundUp_eq]
  constructor
  · rintro ⟨sum, -, rest⟩
    exact ⟨sum, rest⟩
  · rintro ⟨sum, rest⟩
    exact ⟨sum, ⟨by omega, by omega⟩, rest⟩

/-- On the machine a request is planned exactly where the answer fits, and then as without
bounds. -/
theorem planI64_eq_ok {now : ℤ} (hnow : minI64 ≤ now ∧ now ≤ maxI64) (rangeS : ℤ)
    (step : Option ℤ) (keep : Retention) (p : Plan) :
    planI64 now rangeS step keep = .ok p ↔
      Fits now rangeS step keep ∧ p = plan now rangeS step keep := by
  have hr := le_cutRange rangeS keep
  rw [plan_eq]
  unfold Fits
  change (ceilDivI64 (cutRange rangeS keep) _ >>= fun floor =>
    stepsI64 now (cutRange rangeS keep) (max (max (step.getD 1) floor) 1)
      (planTier (max (max (step.getD 1) floor) 1) (cutRange rangeS keep) keep)) = _ ↔ _
  dsimp only
  generalize cutRange rangeS keep = r at *
  have short : r ≤ 600 * stepFor r step keep := by
    have h₁ := le_wanted_mul r step
    have h₂ := wanted_le_stepFor r step keep
    omega
  rw [ceilDivI64_bind_eq_ok (by omega) (by decide)]
  change _ ∧ stepsI64 now r (wanted r step) (planTier (wanted r step) r keep) = _ ↔ _
  rw [stepsI64_eq_ok (wanted_pos r step)]
  change _ ∧ _ ∧ cellsI64 now r (stepFor r step keep) _ = _ ↔ _
  rw [cellsI64_eq_ok hnow (by omega) (stepFor_pos r step keep) short]
  constructor
  · rintro ⟨-, -, rest⟩
    exact rest
  · rintro ⟨fits, rfl⟩
    obtain ⟨sum, want⟩ := wanted_fits hr fits.1
    exact ⟨sum, want, fits, rfl⟩

/-! ## Requests -/

/-- The seconds a text stands for, whatever number it holds. -/
def seconds (text : String) : Option ℤ := (readRange text).map fun r => r.1 * r.2

/-- The range a request asks for, where it is accepted. -/
def askedRange (q : SeriesParams) : Option ℤ :=
  match q.range with
  | none => some defaultRange
  | some text => seconds text

/-- The step a request asks for, where it is accepted. -/
def askedStep (q : SeriesParams) : Option (Option ℤ) :=
  match q.step with
  | none => some none
  | some text => if text = "auto" ∨ text = "" then some none else (seconds text).map some

theorem splitUnit_pos (t : List Char) (last : Char) : 0 < (splitUnit t last).2 := by
  unfold splitUnit
  split_ifs <;> simp

theorem readRange_pos {text : String} {n mult : ℤ} (h : readRange text = some (n, mult)) :
    0 < n * mult := by
  unfold readRange at h
  obtain ⟨last, -, h⟩ := Option.bind_eq_some_iff.mp h
  obtain ⟨m, hm, h⟩ := Option.map_eq_some_iff.mp h
  have positive : 0 < m := of_decide_eq_true (Option.filter_eq_some_iff.mp hm).2
  obtain ⟨rfl, rfl⟩ := Prod.mk.inj h
  exact Int.mul_pos positive (splitUnit_pos _ last)

/-- A text is read on the machine where its seconds fit. -/
theorem parseRange_bind_eq_ok {α : Type} {text : String} {v : ℤ} (h : seconds text = some v)
    {f : Option ℤ → Checked α} {a : α} :
    (parseRange text >>= f) = .ok a ↔ v ≤ maxI64 ∧ f (some v) = .ok a := by
  obtain ⟨⟨n, mult⟩, hread, rfl⟩ := Option.map_eq_some_iff.mp h
  have positive := readRange_pos hread
  have bottom : minI64 = -9223372036854775808 := by decide
  unfold parseRange
  rw [hread]
  dsimp only
  change ((i64 (n * mult) >>= fun v => pure (some v)) >>= f) = _ ↔ _
  rw [bind_assoc, i64_bind_eq_ok]
  constructor
  · rintro ⟨fits, rest⟩
    exact ⟨fits.2, rest⟩
  · rintro ⟨fits, rest⟩
    exact ⟨⟨by omega, fits⟩, rest⟩

theorem rangeOf_bind_eq_ok {α : Type} {q : SeriesParams} {range : ℤ}
    (h : askedRange q = some range) {f : Except String ℤ → Checked α} {a : α} :
    (rangeOf q >>= f) = .ok a ↔ range ≤ maxI64 ∧ f (.ok range) = .ok a := by
  unfold askedRange at h
  unfold rangeOf
  cases hq : q.range with
  | none =>
      rw [hq] at h
      cases h
      exact ⟨fun rest => ⟨by decide, rest⟩, fun rest => rest.2⟩
  | some text =>
      rw [hq] at h
      dsimp only
      rw [bind_assoc, parseRange_bind_eq_ok h]
      rfl

theorem stepOf_bind_eq_ok {α : Type} {q : SeriesParams} {step : Option ℤ}
    (h : askedStep q = some step) {f : Except String (Option ℤ) → Checked α} {a : α} :
    (stepOf q >>= f) = .ok a ↔ (∀ v ∈ step, v ≤ maxI64) ∧ f (.ok step) = .ok a := by
  unfold askedStep at h
  unfold stepOf
  cases hq : q.step with
  | none =>
      rw [hq] at h
      cases h
      exact ⟨fun rest => ⟨fun v hv => (nomatch hv), rest⟩, fun rest => rest.2⟩
  | some text =>
      rw [hq] at h
      dsimp only at h ⊢
      split at h
      · rename_i auto
        cases h
        rw [if_pos auto]
        exact ⟨fun rest => ⟨fun v hv => (nomatch hv), rest⟩, fun rest => rest.2⟩
      · rename_i auto
        obtain ⟨v, hv, rfl⟩ := Option.map_eq_some_iff.mp h
        rw [if_neg auto, bind_assoc, parseRange_bind_eq_ok hv]
        constructor
        · rintro ⟨fits, rest⟩
          exact ⟨fun w hw => Option.some.inj hw ▸ fits, rest⟩
        · rintro ⟨fits, rest⟩
          exact ⟨fits v rfl, rest⟩

/-- A request whose texts are accepted is planned without leaving the machine's integers, and
covers its range, exactly where both texts stand for machine integers and the answer fits. -/
theorem series_plan_iff {now : ℤ} (hnow : minI64 ≤ now ∧ now ≤ maxI64) (keep : Retention)
    {q : SeriesParams} {range : ℤ} {step : Option ℤ} (hrange : askedRange q = some range)
    (hstep : askedStep q = some step) :
    (∃ p, seriesPlan now q keep = .ok (.ok p) ∧ Covers now range keep p) ↔
      range ≤ maxI64 ∧ (∀ v ∈ step, v ≤ maxI64) ∧ Fits now range step keep := by
  have planned : ∀ p, seriesPlan now q keep = .ok (.ok p) ↔
      range ≤ maxI64 ∧ (∀ v ∈ step, v ≤ maxI64) ∧ planI64 now range step keep = .ok p := by
    intro p
    unfold seriesPlan
    rw [rangeOf_bind_eq_ok hrange]
    dsimp only
    rw [stepOf_bind_eq_ok hstep]
    dsimp only
    cases planI64 now range step keep with
    | error e => simp
    | ok v => simp
  constructor
  · rintro ⟨p, hp, -⟩
    obtain ⟨texts, steps, plan⟩ := (planned p).mp hp
    exact ⟨texts, steps, ((planI64_eq_ok hnow range step keep p).mp plan).1⟩
  · rintro ⟨texts, steps, fits⟩
    refine ⟨plan now range step keep, (planned _).mpr ⟨texts, steps, ?_⟩, plan_covers _ _ _ _⟩
    exact (planI64_eq_ok hnow range step keep _).mpr ⟨fits, rfl⟩

/-- What is kept by default: a day, two weeks, three months. -/
def usualRetention : Retention := ⟨86400, 14 * 86400, 90 * 86400⟩

/-- A week in steps of half an hour. -/
theorem week_is_planned :
    ∃ p, seriesPlan 1790000000 ⟨some "7d", some "30m"⟩ usualRetention = .ok (.ok p) ∧
      Covers 1790000000 604800 usualRetention p := by
  have step : ∀ v ∈ some (1800 : ℤ), v ≤ 2 ^ 61 := by
    intro v hv
    cases hv
    decide
  have asked : askedRange ⟨some "7d", some "30m"⟩ = some 604800 ∧
      askedStep ⟨some "7d", some "30m"⟩ = some (some 1800) := by decide +kernel
  exact (series_plan_iff (by decide) usualRetention asked.1 asked.2).mpr
    ⟨by decide, fun v hv => (step v hv).trans (by decide),
      fits_of_le 604800 (by decide) step (by decide)⟩

/-- The largest machine integer is accepted as a step and cannot be rounded up; a range of as
many days is not even a number. -/
theorem long_step_overflows :
    parseRange "9223372036854775807" = .ok (some maxI64) ∧
    seriesPlan 1790000000 ⟨some "1h", some "9223372036854775807"⟩ usualRetention = .error ⟨⟩ ∧
    askedRange ⟨some "9223372036854775807d", none⟩ = some (maxI64 * 86400) ∧
    seriesPlan 1790000000 ⟨some "9223372036854775807d", none⟩ usualRetention = .error ⟨⟩ := by
  decide +kernel

end Lss.Analysis.PlanBounds
