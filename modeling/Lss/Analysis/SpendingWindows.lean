import Lss.Model.Spending

/-!
# The days of the spending windows

Stepping back from today's midnight by days of 24 hours finds the midnight a window begins at
only while the clock was not set in between. The windows sum the days they name, and the month
has its own length, exactly when the offsets of a few midnights stand in the right order.
-/

set_option autoImplicit false

namespace Lss.Analysis.SpendingWindows

open Lss.Library Lss.Model

/-! ## What a window sums -/

/-- A window holds the money, the energy and the priced time of a list of days. -/
structure Sums (w : SpendWindow) (days : List DaySpend) : Prop where
  usd : w.usd = if days = [] then none else some (days.map DaySpend.usd).sum
  kwh : w.kwh = if days = [] then none else some (days.map DaySpend.kwh).sum
  covered : w.coveredSecs = (days.map DaySpend.coveredSecs).sum

theorem foldl_add (days : List DaySpend) (acc : SpendSum) : days.foldl SpendSum.add acc =
    { usd := acc.usd + (days.map DaySpend.usd).sum
      kwh := acc.kwh + (days.map DaySpend.kwh).sum
      covered := acc.covered + (days.map DaySpend.coveredSecs).sum
      any := acc.any || !days.isEmpty } := by
  induction days generalizing acc with
  | nil => simp
  | cons d days ih =>
      rw [List.foldl_cons, ih]
      simp [SpendSum.add, add_assoc]

theorem sums_of (days : List DaySpend) (start stop nominalSecs : ℤ) :
    Sums (SpendWindow.of days start stop nominalSecs)
      (days.filter fun d => start ≤ d.ts ∧ d.ts < stop) := by
  unfold SpendWindow.of
  rw [foldl_add]
  generalize (days.filter fun d => start ≤ d.ts ∧ d.ts < stop) = inside
  cases inside with
  | nil => constructor <;> simp
  | cons d inside => constructor <;> simp

/-! ## The days a window names -/

/-- A series of days as the collector has it: in order, each with its own midnight as its key,
and none of the future. -/
structure DailySeries (zone : Zone) (now : ℤ) (days : List DaySpend) : Prop where
  ordered : days.Pairwise fun a b => a.ts < b.ts
  midnights : ∀ d ∈ days, zone.localMidnight d.ts = d.ts
  past : ∀ d ∈ days, d.ts ≤ now

/-- The days of a series from one day of the calendar to another. -/
def ofDays (zone : Zone) (first last : ℤ) (days : List DaySpend) : List DaySpend :=
  days.filter fun d => first ≤ zone.index d.ts ∧ zone.index d.ts ≤ last

section Window

variable (zone : Zone) (now start stop nominalSecs first last : ℤ)

/-- A window sums the days it names, in every series, exactly when it lets in their
midnights and no other. -/
theorem sums_named_iff :
    (∀ days, DailySeries zone now days →
      Sums (SpendWindow.of days start stop nominalSecs) (ofDays zone first last days)) ↔
    ∀ k ≤ zone.index now, start ≤ zone.start k ∧ zone.start k < stop ↔ first ≤ k ∧ k ≤ last := by
  constructor
  · intro h k hk
    -- a series of the one day tells whether the window lets it in
    have hpast : zone.start k ≤ now := (zone.start_le_iff k now).2 hk
    let day : DaySpend := { date := "", ts := zone.start k, usd := 1, kwh := 1, coveredSecs := 0 }
    have hseries : DailySeries zone now [day] := by
      refine ⟨List.pairwise_singleton _ _, ?_, ?_⟩
      · intro d hd
        rw [List.mem_singleton.1 hd]
        show zone.start (zone.index (zone.start k)) = zone.start k
        rw [zone.index_start]
      · intro d hd
        rw [List.mem_singleton.1 hd]
        exact hpast
    have hnamed := (h [day] hseries).usd
    have hinside := (sums_of [day] start stop nominalSecs).usd
    rw [hinside] at hnamed
    have hindex : zone.index day.ts = k := zone.index_start k
    have hts : day.ts = zone.start k := rfl
    unfold ofDays at hnamed
    rw [List.filter_cons, List.filter_cons, List.filter_nil, hindex, hts] at hnamed
    by_cases hwindow : start ≤ zone.start k ∧ zone.start k < stop
    · by_cases hname : first ≤ k ∧ k ≤ last
      · exact iff_of_true hwindow hname
      · simp [hwindow, hname] at hnamed
    · by_cases hname : first ≤ k ∧ k ≤ last
      · simp [hwindow, hname] at hnamed
      · exact iff_of_false hwindow hname
  · intro h days hdays
    have hsame : ofDays zone first last days =
        days.filter fun d => start ≤ d.ts ∧ d.ts < stop := by
      unfold ofDays
      apply List.filter_congr
      intro d hd
      have hday := h (zone.index d.ts) (zone.index_mono (hdays.past d hd))
      have hmidnight : zone.start (zone.index d.ts) = d.ts := hdays.midnights d hd
      rw [hmidnight] at hday
      simp only [hday]
    rw [hsame]
    exact sums_of days start stop nominalSecs

/-- A window that goes on to the end of today. -/
theorem sums_until_today_iff (hstop : now < stop) (hfirst : first ≤ zone.index now) :
    (∀ days, DailySeries zone now days → Sums (SpendWindow.of days start stop nominalSecs)
      (ofDays zone first (zone.index now) days)) ↔
    zone.start (first - 1) < start ∧ start ≤ zone.start first := by
  rw [sums_named_iff, ← zone.starts_from_iff start hfirst]
  apply forall_congr'
  intro k
  apply forall_congr'
  intro hk
  have hin : zone.start k < stop := lt_of_le_of_lt ((zone.start_le_iff k now).2 hk) hstop
  simp only [hin, hk, and_true]

/-- The window of the day before today. -/
theorem sums_yesterday_iff :
    (∀ days, DailySeries zone now days →
      Sums (SpendWindow.of days start (zone.localMidnight now) nominalSecs)
        (ofDays zone (zone.index now - 1) (zone.index now - 1) days)) ↔
    zone.start (zone.index now - 1 - 1) < start ∧ start ≤ zone.start (zone.index now - 1) := by
  rw [sums_named_iff, ← zone.starts_from_iff start (le_refl (zone.index now - 1))]
  unfold Zone.localMidnight
  simp only [zone.start_lt_start]
  constructor
  · intro h k hk
    have hday := h k (by omega)
    constructor
    · intro hstart
      exact (hday.1 ⟨hstart, by omega⟩).1
    · intro hle
      exact (hday.2 ⟨hle, hk⟩).1
  · intro h k hk
    constructor
    · rintro ⟨hstart, hlt⟩
      exact ⟨(h k (by omega)).1 hstart, by omega⟩
    · rintro ⟨hle, hge⟩
      exact ⟨(h k hge).2 hle, by omega⟩

end Window

/-! ## The clock at midnight -/

/-- How far the clock of a zone is ahead of UTC at the midnight of a day. -/
def offset (zone : Zone) (day : ℤ) : ℤ := 86400 * day - zone.start day

/-- Back from today's midnight by `k` days of 24 hours: the clock then was not ahead of
today's, and not a whole day behind it. -/
structure StepsBack (zone : Zone) (today k : ℤ) : Prop where
  notAhead : offset zone (today - k) ≤ offset zone today
  withinDay : offset zone today < offset zone (today - k - 1) + 86400

theorem stepsBack_iff (zone : Zone) (today k : ℤ) : StepsBack zone today k ↔
    zone.start (today - k - 1) < zone.start today - k * 86400 ∧
      zone.start today - k * 86400 ≤ zone.start (today - k) := by
  constructor
  · rintro ⟨hahead, hwithin⟩
    unfold offset at hahead hwithin
    omega
  · intro h
    constructor <;> (unfold offset; omega)

/-! ## The month -/

section Month

variable (zone : Zone)

/-- Probing for the end of a month stops at the first step that reaches it. -/
theorem probeMonthEnd_spec (month probe : ℤ) (hprobe : zone.start (monthFirst month) ≤ probe) :
    zone.start (monthFirst (month + 1)) ≤ probeMonthEnd zone month probe ∧
      ∃ j : ℕ, probeMonthEnd zone month probe = probe + j * 86400 ∧
        (j = 0 ∨ probe + (j - 1) * 86400 < zone.start (monthFirst (month + 1))) := by
  fun_induction probeMonthEnd zone month probe with
  | case1 probe hmonth ih =>
      obtain ⟨hend, j, heq, hlast⟩ := ih (by omega)
      refine ⟨hend, j + 1, ?_, Or.inr ?_⟩
      · rw [heq]
        push_cast
        ring
      · have hin := (monthOf_bracket (zone.index probe)).2
        rw [hmonth, ← zone.lt_start_iff] at hin
        push_cast
        omega
  | case2 probe hmonth =>
      refine ⟨?_, 0, by simp, Or.inl rfl⟩
      have hfrom : monthFirst month ≤ zone.index probe := (zone.start_le_iff _ probe).1 hprobe
      rw [zone.start_le_iff]
      have hle : month ≤ monthOf (zone.index probe) := (months.start_le_iff _ _).1 hfrom
      exact (months.start_le_iff (month + 1) _).2 (by change _ ≤ monthOf _; omega)

theorem monthDays_ge (month : ℤ) : 28 ≤ monthDays month := by
  have hlength := (monthFirst_add_one month).1
  unfold monthDays
  omega

/-- Probing from the first midnight of a month finds its length exactly when the next month
begins within the last of so many days of 24 hours. -/
theorem probed_days_iff (month : ℤ) :
    (probeMonthEnd zone month (zone.start (monthFirst month) + 28 * 86400) -
        zone.start (monthFirst month)) / 86400 = monthDays month ↔
      offset zone (monthFirst month) ≤ offset zone (monthFirst (month + 1)) ∧
      (monthDays month = 28 ∨
        offset zone (monthFirst (month + 1)) < offset zone (monthFirst month) + 86400) := by
  obtain ⟨hend, j, heq, hlast⟩ :=
    probeMonthEnd_spec zone month (zone.start (monthFirst month) + 28 * 86400) (by omega)
  have hmin := monthDays_ge month
  rw [heq] at hend ⊢
  have hdays : (zone.start (monthFirst month) + 28 * 86400 + (j : ℤ) * 86400 -
      zone.start (monthFirst month)) / 86400 = 28 + j := by
    omega
  rw [hdays]
  unfold offset
  unfold monthDays at *
  omega

end Month

/-! ## When the windows are right -/

/-- Every window sums the days it names. -/
structure NamedWindows (zone : Zone) (now : ℤ) (days : List DaySpend) (sp : SpendingStatus) :
    Prop where
  yesterday : Sums sp.yesterday (ofDays zone (zone.index now - 1) (zone.index now - 1) days)
  thisWeek : Sums sp.thisWeek
    (ofDays zone (zone.index now - (weekday (zone.index now) - 1)) (zone.index now) days)
  last7d : Sums sp.last7d (ofDays zone (zone.index now - 6) (zone.index now) days)
  thisMonth : Sums sp.thisMonth
    (ofDays zone (monthFirst (monthOf (zone.index now))) (zone.index now) days)
  last30d : Sums sp.last30d (ofDays zone (zone.index now - 29) (zone.index now) days)

/-- The month begins at the midnight of its first day and has its days. -/
def TrueMonth (zone : Zone) (now : ℤ) : Prop :=
  (monthBounds zone now).1 = zone.start (monthFirst (monthOf (zone.index now))) ∧
    (monthBounds zone now).2.1 = monthDays (monthOf (zone.index now))

/-- The offsets of the midnights that the windows begin at. -/
structure SteadyClock (zone : Zone) (now : ℤ) : Prop where
  yesterday : StepsBack zone (zone.index now) 1
  week : StepsBack zone (zone.index now) (weekday (zone.index now) - 1)
  sevenDays : StepsBack zone (zone.index now) 6
  thirtyDays : StepsBack zone (zone.index now) 29
  monthStart :
    offset zone (monthFirst (monthOf (zone.index now))) = offset zone (zone.index now)
  monthEnd : offset zone (monthFirst (monthOf (zone.index now))) ≤
    offset zone (monthFirst (monthOf (zone.index now) + 1))
  monthEndWithinDay : monthDays (monthOf (zone.index now)) = 28 ∨
    offset zone (monthFirst (monthOf (zone.index now) + 1)) <
      offset zone (monthFirst (monthOf (zone.index now))) + 86400

section Today

variable (zone : Zone) (now : ℤ)

theorem monthBounds_start : (monthBounds zone now).1 = zone.start (zone.index now) -
    (zone.index now - monthFirst (monthOf (zone.index now))) * 86400 := by
  have hin := (monthOf_bracket (zone.index now)).1
  unfold monthBounds dayOfMonth Zone.localMidnight
  dsimp only
  rw [add_sub_cancel_right, max_eq_left (by omega)]

theorem monthBounds_start_iff :
    (monthBounds zone now).1 = zone.start (monthFirst (monthOf (zone.index now))) ↔
      offset zone (monthFirst (monthOf (zone.index now))) = offset zone (zone.index now) := by
  rw [monthBounds_start]
  unfold offset
  omega

theorem trueMonth_iff : TrueMonth zone now ↔
    offset zone (monthFirst (monthOf (zone.index now))) = offset zone (zone.index now) ∧
    offset zone (monthFirst (monthOf (zone.index now))) ≤
      offset zone (monthFirst (monthOf (zone.index now) + 1)) ∧
    (monthDays (monthOf (zone.index now)) = 28 ∨
      offset zone (monthFirst (monthOf (zone.index now) + 1)) <
        offset zone (monthFirst (monthOf (zone.index now))) + 86400) := by
  unfold TrueMonth
  rw [← monthBounds_start_iff]
  apply and_congr_right
  intro hstart
  rw [← probed_days_iff]
  have hmonth : monthOf (zone.index (monthBounds zone now).1) = monthOf (zone.index now) := by
    rw [hstart, zone.index_start]
    exact months.index_start _
  have hdays : (monthBounds zone now).2.1 =
      (probeMonthEnd zone (monthOf (zone.index (monthBounds zone now).1))
        ((monthBounds zone now).1 + 28 * 86400) - (monthBounds zone now).1) / 86400 := rfl
  rw [hdays, hmonth, hstart]

theorem weekStart_eq : weekStart zone now =
    zone.start (zone.index now) - (weekday (zone.index now) - 1) * 86400 := by
  have hday : 1 ≤ weekday (zone.index now) := by
    unfold weekday
    omega
  unfold weekStart Zone.localMidnight
  dsimp only
  rw [zone.index_start, max_eq_left (by omega)]

/-- In every series the five windows sum the days they name, and the month is the month of the
calendar, exactly when the clock's offsets at the midnights in question allow it. -/
theorem windows_named_iff :
    ((∀ days, DailySeries zone now days → NamedWindows zone now days
        (spendingWindows days now (spendBounds zone now))) ∧ TrueMonth zone now) ↔
      SteadyClock zone now := by
  have hyesterday := sums_yesterday_iff zone now (zone.localMidnight now - 86400) 86400
  have hfrom : ∀ start nominalSecs first : ℤ, first ≤ zone.index now →
      ((∀ days, DailySeries zone now days →
        Sums (SpendWindow.of days start (now + 86400) nominalSecs)
          (ofDays zone first (zone.index now) days)) ↔
      zone.start (first - 1) < start ∧ start ≤ zone.start first) := by
    intro start nominalSecs first hfirst
    exact sums_until_today_iff zone now start (now + 86400) nominalSecs first (by omega) hfirst
  have hweekday : 1 ≤ weekday (zone.index now) := by
    unfold weekday
    omega
  have hmonth := (monthOf_bracket (zone.index now)).1
  constructor
  · rintro ⟨hwindows, htrue⟩
    have hmonthEnd := (trueMonth_iff zone now).1 htrue
    refine ⟨?_, ?_, ?_, ?_, hmonthEnd.1, hmonthEnd.2.1, hmonthEnd.2.2⟩
    · rw [stepsBack_iff]
      have h := hyesterday.1 fun days hdays => (hwindows days hdays).yesterday
      simpa [Zone.localMidnight] using h
    · rw [stepsBack_iff]
      have h := (hfrom _ _ _ (by omega)).1 fun days hdays => (hwindows days hdays).thisWeek
      have hstart : (spendBounds zone now).weekStart = weekStart zone now := rfl
      rw [hstart, weekStart_eq] at h
      exact h
    · rw [stepsBack_iff]
      exact (hfrom _ _ _ (by omega)).1 fun days hdays => (hwindows days hdays).last7d
    · rw [stepsBack_iff]
      exact (hfrom _ _ _ (by omega)).1 fun days hdays => (hwindows days hdays).last30d
  · intro h
    have htrue : TrueMonth zone now :=
      (trueMonth_iff zone now).2 ⟨h.monthStart, h.monthEnd, h.monthEndWithinDay⟩
    refine ⟨fun days hdays => ⟨?_, ?_, ?_, ?_, ?_⟩, htrue⟩
    · apply hyesterday.2 _ days hdays
      have hstep := (stepsBack_iff zone (zone.index now) 1).1 h.yesterday
      simpa [Zone.localMidnight] using hstep
    · apply (hfrom (weekStart zone now) _ _ (by omega)).2 _ days hdays
      rw [weekStart_eq]
      exact (stepsBack_iff zone (zone.index now) _).1 h.week
    · apply (hfrom _ _ _ (by omega)).2 _ days hdays
      exact (stepsBack_iff zone (zone.index now) 6).1 h.sevenDays
    · apply (hfrom (monthBounds zone now).1 _ _ hmonth).2 _ days hdays
      rw [htrue.1]
      refine ⟨?_, le_rfl⟩
      rw [zone.start_lt_start]
      omega
    · apply (hfrom _ _ _ (by omega)).2 _ days hdays
      exact (stepsBack_iff zone (zone.index now) 29).1 h.thirtyDays

/-- Where the clock is never set the windows are right. -/
theorem steadyClock_of_constant (hclock : ∀ a b, offset zone a = offset zone b) :
    SteadyClock zone now := by
  have hstep : ∀ k, StepsBack zone (zone.index now) k := by
    intro k
    constructor
    · exact (hclock _ _).le
    · rw [hclock (zone.index now - k - 1) (zone.index now)]
      omega
  refine ⟨hstep _, hstep _, hstep _, hstep _, hclock _ _, (hclock _ _).le, Or.inr ?_⟩
  rw [hclock (monthFirst (monthOf (zone.index now)))
    (monthFirst (monthOf (zone.index now) + 1))]
  omega

end Today

/-! ## The series of the collector -/

section Series

variable (zone : Zone)

theorem mem_rollupRows {db : RollupDb} {res start stop : ℤ} {name : String} {row : ℤ × Agg}
    (h : row ∈ db.rollupRows res name start stop) : start ≤ row.1 ∧ row.1 < stop := by
  unfold RollupDb.rollupRows at h
  rw [List.mem_filterMap] at h
  obtain ⟨i, hi, hrow⟩ := h
  rw [List.mem_range] at hi
  rw [Option.map_eq_some_iff] at hrow
  obtain ⟨r, _, rfl⟩ := hrow
  dsimp only
  omega

/-- Every day of the grouping has a row of its own. -/
theorem mem_foldl_addToDay (rows : List (ℤ × Agg))
    (byDay : Std.ExtTreeMap ℤ (List (ℤ × ℚ))) (day : ℤ)
    (h : day ∈ rows.foldl (addToDay zone) byDay) :
    day ∈ byDay ∨ ∃ row ∈ rows, zone.localMidnight row.1 = day := by
  induction rows generalizing byDay with
  | nil => exact Or.inl h
  | cons row rows ih =>
      rw [List.foldl_cons] at h
      obtain hday | ⟨r, hr, heq⟩ := ih _ h
      · unfold addToDay at hday
        rw [Std.ExtTreeMap.mem_insert] at hday
        obtain heq | hday := hday
        · exact Or.inr ⟨row, List.mem_cons_self, Std.LawfulEqCmp.eq_of_compare heq⟩
        · exact Or.inl hday
      · exact Or.inr ⟨r, List.mem_cons_of_mem _ hr, heq⟩

/-- What the collector sums is such a series. -/
theorem dailySpend_series (calendar : Calendar) (db : RollupDb) (table : RateTable)
    (start now : ℤ) : DailySeries zone now (dailySpend zone calendar db table start now) := by
  let byDay := (db.rollupRows res10m "sum_energy_j" start (now + 1)).foldl (addToDay zone) ∅
  have hof : ∀ d ∈ dailySpend zone calendar db table start now,
      ∃ t ≤ now, zone.localMidnight t = d.ts := by
    intro d hd
    unfold dailySpend at hd
    rw [List.mem_filterMap] at hd
    obtain ⟨⟨day, buckets⟩, hentry, hspend⟩ := hd
    have hmem : day ∈ byDay := by
      rw [Std.ExtTreeMap.mem_iff_isSome_getElem?,
        Std.ExtTreeMap.mem_toList_iff_getElem?_eq_some.1 hentry]
      rfl
    have hts : d.ts = day := by
      dsimp only at hspend
      split at hspend
      · exact (congrArg DaySpend.ts (Option.some.inj hspend)).symm
      · cases hspend
    obtain hnone | ⟨row, hrow, heq⟩ := mem_foldl_addToDay zone _ _ _ hmem
    · simp at hnone
    · have hbefore := (mem_rollupRows hrow).2
      exact ⟨row.1, by omega, heq.trans hts.symm⟩
  refine ⟨?_, ?_, ?_⟩
  · unfold dailySpend
    refine List.Pairwise.filterMap _ ?_ Std.ExtTreeMap.ordered_keys_toList
    intro a b hab d hd e he
    dsimp only at hd he
    split at hd
    · split at he
      · cases hd
        cases he
        exact compare_lt_iff_lt.1 hab
      · cases he
    · cases hd
  · intro d hd
    obtain ⟨t, _, heq⟩ := hof d hd
    rw [← heq]
    unfold Zone.localMidnight
    rw [zone.index_start]
  · intro d hd
    obtain ⟨t, ht, heq⟩ := hof d hd
    rw [← heq]
    exact (zone.start_index_le t).trans ht

end Series

/-! ## A Sunday of 25 hours -/

/-- The midnights of New York around the first of November 2026, day 20758, on which the clock
is set back from four to five hours behind UTC. -/
def newYork : Zone :=
  Blocks.ofBrackets
    (fun day => 86400 * day + if day ≤ 20758 then 14400 else 18000)
    (fun t => if t < 86400 * 20759 + 18000 then min 20758 ((t - 14400) / 86400)
      else (t - 18000) / 86400)
    (fun day => by split <;> split <;> omega)
    (fun t => by
      split
      · rw [if_pos (min_le_left _ _)]
        split <;> omega
      · rw [if_neg (by omega), if_neg (by omega)]
        omega)

/-- At noon of the second of November the day before, all of it priced, is in no window of
yesterday, and November begins at one o'clock. -/
theorem long_sunday_is_not_yesterday :
    let sunday : DaySpend :=
      { date := "2026-11-01", ts := newYork.start 20758, usd := 3, kwh := 12, coveredSecs := 90000 }
    let now := newYork.start 20759 + 43200
    DailySeries newYork now [sunday] ∧
      ¬ NamedWindows newYork now [sunday]
        (spendingWindows [sunday] now (spendBounds newYork now)) ∧
      ¬ TrueMonth newYork now := by
  intro sunday now
  have hindex : newYork.index now = 20759 := by decide
  refine ⟨⟨List.pairwise_singleton _ _, ?_, ?_⟩, ?_, ?_⟩
  · intro d hd
    rw [List.mem_singleton.1 hd]
    decide
  · intro d hd
    rw [List.mem_singleton.1 hd]
    decide
  · intro h
    have husd := h.yesterday.usd
    rw [hindex] at husd
    have hcode : (spendingWindows [sunday] now (spendBounds newYork now)).yesterday.usd = none := by
      decide
    have hnamed : ofDays newYork (20759 - 1) (20759 - 1) [sunday] = [sunday] := by
      decide
    rw [hcode, hnamed] at husd
    simp at husd
  · intro h
    rw [trueMonth_iff, hindex] at h
    exact absurd h.1 (by decide)

end Lss.Analysis.SpendingWindows
