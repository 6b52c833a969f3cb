import Lss.Library.Window
import Lss.Model.Rules

/-!
# The growth of a counter across its window

The readings that a window keeps are the end of the newest stretch in which the counter only
rose, from the last reading on that is as old as the window. The growth is measured from there.
-/

set_option autoImplicit false

namespace Lss.Analysis.GrowthWindows

open Lss.Model Lss.Library Lss.Library.Window

/-- A reading that is as old as the window. -/
def Old (now window : ℤ) (r : ℤ × ℕ) : Prop := r.1 ≤ now - window

instance (now window : ℤ) : DecidablePred (Old now window) := fun r =>
  inferInstanceAs (Decidable (r.1 ≤ now - window))

theorem dropOld_eq (now window : ℤ) (points : List (ℤ × ℕ)) :
    dropOld now window points = fromLastOld (Old now window) points := by
  fun_induction fromLastOld (Old now window) points with
  | case1 first second rest second_old ih =>
      rw [dropOld, if_pos (show second.1 ≤ now - window from second_old)]
      exact ih
  | case2 first second rest second_new =>
      rw [dropOld, if_neg (show ¬second.1 ≤ now - window from second_new)]
  | case3 l short =>
      unfold dropOld
      split
      · exact absurd rfl (short _ _ _)
      · rfl

/-- Readings in the order of their times are in the order of their age. -/
theorem old_sorted {readings : List (ℤ × ℕ)} (sorted : readings.Pairwise fun r s => r.1 ≤ s.1)
    (now window : ℤ) : readings.Pairwise fun r s => Old now window s → Old now window r :=
  sorted.imp fun before later => le_trans before later

/-- What was cut off before a later reading came would be cut off with it. -/
theorem dropOld_dropOld {now later : ℤ} (h : now ≤ later) (window : ℤ)
    (points more : List (ℤ × ℕ)) :
    dropOld later window (dropOld now window points ++ more) =
      dropOld later window (points ++ more) := by
  rw [dropOld_eq, dropOld_eq, dropOld_eq]
  apply fromLastOld_append
  intro r (hr : r.1 ≤ now - window)
  show r.1 ≤ later - window
  omega

theorem getLast?_dropOld (now window : ℤ) (points : List (ℤ × ℕ)) :
    (dropOld now window points).getLast? = points.getLast? := by
  rw [dropOld_eq, getLast?_fromLastOld]

/-! ## The newest stretch in which the counter rose -/

/-- The readings after one more: a counter that went backwards starts over. -/
def grow (segment : List (ℤ × ℕ)) (r : ℤ × ℕ) : List (ℤ × ℕ) :=
  (if segment.getLast?.any (fun p => decide (r.2 < p.2)) then [] else segment) ++ [r]

def segmentOf (readings : List (ℤ × ℕ)) : List (ℤ × ℕ) := readings.foldl grow []

theorem segmentOf_concat (readings : List (ℤ × ℕ)) (r : ℤ × ℕ) :
    segmentOf (readings ++ [r]) = grow (segmentOf readings) r := List.foldl_concat _ _ _ _

/-- The longest end of the readings in which the counter never went backwards. -/
structure NewestRise (readings earlier segment : List (ℤ × ℕ)) : Prop where
  split : readings = earlier ++ segment
  rises : segment.Pairwise fun r s => r.2 ≤ s.2
  fell : ∀ last, earlier.getLast? = some last → ∃ first rest,
    segment = first :: rest ∧ first.2 < last.2

/-- In a stretch in which the counter only rose, the last reading is the highest. -/
theorem le_of_getLast? {segment : List (ℤ × ℕ)} (rises : segment.Pairwise fun r s => r.2 ≤ s.2)
    {last r : ℤ × ℕ} (hlast : segment.getLast? = some last) (hr : r ∈ segment) : r.2 ≤ last.2 := by
  obtain ⟨front, rfl⟩ := List.getLast?_eq_some_iff.mp hlast
  rcases List.mem_append.mp hr with hr | hr
  · exact (List.pairwise_append.mp rises).2.2 r hr last (List.mem_singleton_self _)
  · rw [List.mem_singleton.mp hr]

theorem newestRise_segmentOf (readings : List (ℤ × ℕ)) :
    ∃ earlier, NewestRise readings earlier (segmentOf readings) := by
  induction readings using List.reverseRecOn with
  | nil => exact ⟨[], rfl, List.Pairwise.nil, nofun⟩
  | append_singleton readings r ih =>
      obtain ⟨earlier, split, rises, fell⟩ := ih
      rw [segmentOf_concat]
      generalize segmentOf readings = segment at split rises fell ⊢
      unfold grow
      split
      · rename_i fallen
        obtain ⟨newest, hnewest, below⟩ := (Option.any_eq_true _ _).mp fallen
        refine ⟨readings, rfl, List.pairwise_singleton _ _, ?_⟩
        intro last hlast
        rw [split, List.getLast?_append, hnewest] at hlast
        obtain rfl : newest = last := Option.some.inj hlast
        exact ⟨r, [], rfl, of_decide_eq_true below⟩
      · rename_i risen
        refine ⟨earlier, ?_, ?_, ?_⟩
        · rw [split, List.append_assoc]
        · refine List.pairwise_append.mpr ⟨rises, List.pairwise_singleton _ _, ?_⟩
          intro s hs r' hr'
          rw [List.mem_singleton.mp hr']
          obtain ⟨last, hlast⟩ := List.getLast?_isSome.mpr (List.ne_nil_of_mem hs) |>
            Option.isSome_iff_exists.mp
          have at_last : ¬r.2 < last.2 := by
            intro below
            exact risen ((Option.any_eq_true _ _).mpr ⟨last, hlast, decide_eq_true below⟩)
          exact (le_of_getLast? rises hlast hs).trans (not_lt.mp at_last)
        · intro last hlast
          obtain ⟨first, rest, same, below⟩ := fell last hlast
          exact ⟨first, rest ++ [r], by rw [same]; rfl, below⟩

/-! ## What the window keeps -/

/-- The readings that a window keeps after some. -/
def pushed (window : ℤ) (readings : List (ℤ × ℕ)) : List (ℤ × ℕ) :=
  readings.foldl (fun points r => (GrowthWindow.push points r.1 r.2 window).1) []

theorem push_points (points : List (ℤ × ℕ)) (now : ℤ) (value : ℕ) (window : ℤ) :
    (GrowthWindow.push points now value window).1 = dropOld now window (grow points (now, value)) :=
  rfl

/-- One more reading, after what was kept of a stretch or after the whole of it. -/
theorem dropOld_grow {now later : ℤ} (h : now ≤ later) (window : ℤ) (segment : List (ℤ × ℕ))
    (value : ℕ) : dropOld later window (grow (dropOld now window segment) (later, value)) =
      dropOld later window (grow segment (later, value)) := by
  unfold grow
  rw [getLast?_dropOld]
  split
  · rfl
  · exact dropOld_dropOld h window segment _

/-- What is kept is the end of the newest stretch. -/
theorem pushed_concat (window : ℤ) {readings : List (ℤ × ℕ)} {now : ℤ} {value : ℕ}
    (sorted : (readings ++ [(now, value)]).Pairwise fun r s => r.1 ≤ s.1) :
    pushed window (readings ++ [(now, value)]) =
      dropOld now window (segmentOf (readings ++ [(now, value)])) := by
  induction readings using List.reverseRecOn generalizing now value with
  | nil => rfl
  | append_singleton readings r ih =>
      have sorted' := List.pairwise_append.mp sorted
      have in_order : r.1 ≤ now := sorted'.2.2 r (by simp) (now, value) (List.mem_singleton_self _)
      rw [segmentOf_concat]
      unfold pushed at ih ⊢
      rw [List.foldl_concat, ih sorted'.1, push_points, dropOld_grow in_order]

/-- The growth is measured from the last reading of the newest stretch that is as old as the
window, or from the first of the stretch where none is; and never below it. -/
theorem growth_across_window (window : ℤ) (readings : List (ℤ × ℕ)) (now : ℤ) (value : ℕ)
    (sorted : (readings ++ [(now, value)]).Pairwise fun r s => r.1 ≤ s.1) :
    ∃ earlier segment, NewestRise (readings ++ [(now, value)]) earlier segment ∧
      ∃ cut first rest, BeginsWith (Old now window) segment cut first rest ∧
        first.2 ≤ value ∧
        (GrowthWindow.push (pushed window readings) now value window).2 = value - first.2 := by
  obtain ⟨earlier, rise⟩ := newestRise_segmentOf (readings ++ [(now, value)])
  have kept := pushed_concat window sorted
  have segment_sorted : (segmentOf (readings ++ [(now, value)])).Pairwise fun r s => r.1 ≤ s.1 := by
    rw [rise.split] at sorted
    exact (List.pairwise_append.mp sorted).2.1
  have nonempty : segmentOf (readings ++ [(now, value)]) ≠ [] := by
    rw [segmentOf_concat]
    exact List.append_ne_nil_of_right_ne_nil _ (List.cons_ne_nil _ _)
  have newest : (segmentOf (readings ++ [(now, value)])).getLast? = some (now, value) := by
    rw [segmentOf_concat]
    exact List.getLast?_concat
  obtain ⟨cut, first, rest, begins, same⟩ := exists_beginsWith (Old now window)
    (old_sorted segment_sorted now window) nonempty
  refine ⟨earlier, _, rise, cut, first, rest, begins, ?_, ?_⟩
  · apply le_of_getLast? rise.rises newest
    rw [begins.split]
    exact List.mem_append_right _ List.mem_cons_self
  · have points : (GrowthWindow.push (pushed window readings) now value window).1 = first :: rest := by
      rw [← same, ← dropOld_eq, ← kept]
      unfold pushed
      rw [List.foldl_concat]
    show value - ((GrowthWindow.push (pushed window readings) now value window).1.head?.map
      Prod.snd).getD value = _
    rw [points]
    rfl

/-- The counter fell at 400, and 600 is the oldest moment that the window of 300 looks at. -/
theorem growth_after_restart :
    ∃ earlier segment, NewestRise [(0, 5), (100, 9), (400, 2), (500, 7), (900, 12)]
        earlier segment ∧
      ∃ cut first rest, BeginsWith (Old 900 300) segment cut first rest ∧ first.2 ≤ 12 ∧
        (GrowthWindow.push (pushed 300 [(0, 5), (100, 9), (400, 2), (500, 7)]) 900 12 300).2 =
          12 - first.2 :=
  growth_across_window 300 [(0, 5), (100, 9), (400, 2), (500, 7)] 900 12 (by decide)

/-! ## The counters of the engine -/

section Engine

variable {F : Type} (env : Env) (cfg : RulesConfig F)

/-- The readings of a counter in some observations. -/
def counterReadings (value : Observation F → Option ℕ) (os : List (Observation F)) : List (ℤ × ℕ) :=
  os.filterMap fun o => (value o).map fun v => (o.now, v)

theorem counterReadings_concat (value : Observation F → Option ℕ) (os : List (Observation F))
    (o : Observation F) : counterReadings value (os ++ [o]) =
      counterReadings value os ++ ((value o).map fun v => (o.now, v)).toList := by
  unfold counterReadings
  rw [List.filterMap_append, List.filterMap_cons, List.filterMap_nil]
  cases value o with
  | none => rfl
  | some v => rfl

/-- The window of a counter after one more observation. -/
theorem evalReject_points (key : RuleKey) (code : String) (value : Option ℕ) (o : Observation F)
    (win : GrowthWindow) : (evalReject cfg o key code value win).1.points =
      match value with
      | none => win.points
      | some v => (GrowthWindow.push win.points o.now v cfg.rejectWindowSecs).1 := by
  unfold evalReject
  cases value with
  | none => rfl
  | some v => rfl

theorem pushed_counterReadings (value : Observation F → Option ℕ) (os : List (Observation F))
    (o : Observation F) (window : ℤ) : pushed window (counterReadings value (os ++ [o])) =
      match value o with
      | none => pushed window (counterReadings value os)
      | some v => (GrowthWindow.push (pushed window (counterReadings value os)) o.now v window).1 := by
  rw [counterReadings_concat]
  cases value o with
  | none => exact congrArg (pushed window) (List.append_nil _)
  | some v => exact List.foldl_concat _ _ _ _

/-- The engine keeps, for each of the two counters, what the readings of the run leave. -/
theorem rejects_points [F64 F] (os : List (Observation F)) :
    (evaluateAll env cfg os).1.rejects413.points =
        pushed cfg.rejectWindowSecs (counterReadings Observation.rejected413 os) ∧
      (evaluateAll env cfg os).1.rejects429.points =
        pushed cfg.rejectWindowSecs (counterReadings Observation.rejected429 os) := by
  induction os using List.reverseRecOn with
  | nil => exact ⟨rfl, rfl⟩
  | append_singleton os o ih =>
      unfold evaluateAll at ih ⊢
      rw [Machine.run_concat]
      refine ⟨?_, ?_⟩
      · rw [pushed_counterReadings, ← ih.1]
        exact evalReject_points cfg .rejects413 "413" o.rejected413 o _
      · rw [pushed_counterReadings, ← ih.2]
        exact evalReject_points cfg .rejects429 "429" o.rejected429 o _

end Engine

end Lss.Analysis.GrowthWindows
