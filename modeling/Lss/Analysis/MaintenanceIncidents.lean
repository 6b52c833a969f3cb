import Mathlib.Data.List.Induction
import Lss.Model.Maintenance

/-!
# The incident of a maintenance window

While the collector runs, the incident is open exactly while the window is active. A restart
forgets the window and that its incident was open, and nothing closes the incident then: from
the next tick on it is open without a window, or a second one is opened beside it.
-/

set_option autoImplicit false

namespace Lss.Analysis.MaintenanceIncidents

open Lss.Model

/-! ## Open incidents -/

/-- The open incidents of a kind. -/
def openOf (kind : IncidentKind) (rows : List IncidentRow) : List IncidentRow :=
  rows.filter fun r => r.kind = kind ∧ r.endTs = none

theorem openOf_openIncident (kind kind' : IncidentKind) (rows : List IncidentRow) (start : ℤ)
    (detail : String) : (openOf kind (openIncident rows kind' start detail)).length =
      (openOf kind rows).length + if kind' = kind then 1 else 0 := by
  unfold openOf openIncident
  rw [List.filter_append, List.length_append]
  by_cases h : kind' = kind
  · simp [h]
  · simp [h]

theorem openOf_closeIncident (kind kind' : IncidentKind) (rows : List IncidentRow) (endTs : ℤ) :
    (openOf kind (closeIncident rows kind' endTs)).length =
      if kind' = kind then 0 else (openOf kind rows).length := by
  unfold openOf closeIncident
  induction rows with
  | nil => simp
  | cons r rows ih =>
      rw [List.map_cons, List.filter_cons, List.filter_cons]
      by_cases hr : r.kind = kind' ∧ r.endTs = none
      · rw [if_pos hr]
        by_cases h : kind' = kind
        · simp only [h, if_true] at ih ⊢
          simpa using ih
        · have hkind : ¬ r.kind = kind := fun heq => h (hr.1.symm.trans heq)
          simp only [h, if_false] at ih ⊢
          simpa [hkind] using ih
      · rw [if_neg hr]
        by_cases h : kind' = kind
        · have hopen : ¬ (r.kind = kind ∧ r.endTs = none) := by rw [← h]; exact hr
          simp only [h, if_true] at ih ⊢
          simpa [hopen] using ih
        · simp only [h, if_false] at ih ⊢
          split
          · rw [List.length_cons, List.length_cons, ih]
          · exact ih

/-- How many incidents of a kind are open after a tick has looked at its window. -/
theorem openOf_bookWindow (rows : List IncidentRow) (kind : IncidentKind) (was is : Bool)
    (now : ℤ) (detail : String) : (openOf kind (bookWindow rows kind was is now detail)).length =
      if is = was then (openOf kind rows).length
      else if is then (openOf kind rows).length + 1 else 0 := by
  unfold bookWindow
  split
  · rfl
  · split
    · rw [openOf_openIncident, if_pos rfl]
    · rw [openOf_closeIncident, if_pos rfl]

theorem openOf_bookWindow_of_ne {kind kind' : IncidentKind} (h : kind' ≠ kind)
    (rows : List IncidentRow) (was is : Bool) (now : ℤ) (detail : String) :
    (openOf kind (bookWindow rows kind' was is now detail)).length = (openOf kind rows).length := by
  unfold bookWindow
  split
  · rfl
  · split
    · rw [openOf_openIncident, if_neg h, add_zero]
    · rw [openOf_closeIncident, if_neg h]

/-! ## Steps of the collector -/

/-- How many maintenance incidents are open. -/
def openWindows (c : Collector) : ℕ := (openOf .maintenance c.incidents).length

/-- One maintenance incident is open when a window is active, and none when not. -/
def Consistent (c : Collector) : Prop := openWindows c = if c.window.active then 1 else 0

instance (c : Collector) : Decidable (Consistent c) := inferInstanceAs (Decidable (_ = _))

/-- What the loop has seen last is what is open. -/
def Known (c : Collector) : Prop := openWindows c = if c.maintenanceWasActive then 1 else 0

/-- An incident is open of which the loop does not know. -/
def Forgotten (c : Collector) : Prop := c.maintenanceWasActive = false ∧ openWindows c ≠ 0

/-- A request opens or closes the window; what is stored and what the loop has seen stay. -/
theorem Known.request {c : Collector} (h : Known c) (window : MaintenanceState) :
    Known { c with window := window } := h

theorem Forgotten.request {c : Collector} (h : Forgotten c) (window : MaintenanceState) :
    Forgotten { c with window := window } := h

theorem openWindows_tick (c : Collector) (now : ℤ) (bench : Option String) :
    openWindows (c.tick now bench) =
      if (c.tick now bench).window.active = c.maintenanceWasActive then openWindows c
      else if (c.tick now bench).window.active then openWindows c + 1 else 0 := by
  unfold openWindows Collector.tick
  dsimp only
  rw [openOf_bookWindow, openOf_bookWindow_of_ne (by decide)]

theorem openWindows_restart (c : Collector) (now : ℤ) :
    openWindows (c.restart now) = openWindows c := by
  unfold openWindows Collector.restart
  rw [openOf_closeIncident, if_neg (by decide)]

/-- A tick that knows what is open leaves it consistent. -/
theorem Known.tick {c : Collector} (h : Known c) (now : ℤ) (bench : Option String) :
    Consistent (c.tick now bench) ∧ Known (c.tick now bench) := by
  have hwas : (c.tick now bench).maintenanceWasActive = (c.tick now bench).window.active := rfl
  have hcount : Consistent (c.tick now bench) := by
    unfold Consistent
    unfold Known at h
    rw [openWindows_tick, h]
    cases (c.tick now bench).window.active <;> cases c.maintenanceWasActive <;> rfl
  refine ⟨hcount, ?_⟩
  unfold Known
  rw [hwas]
  exact hcount

/-- A tick that does not know of an open incident does not leave it consistent. -/
theorem Forgotten.tick {c : Collector} (h : Forgotten c) (now : ℤ) (bench : Option String) :
    ¬ Consistent (c.tick now bench) := by
  obtain ⟨hwas, hopen⟩ := h
  unfold Consistent
  rw [openWindows_tick, hwas]
  cases (c.tick now bench).window.active with
  | true =>
      simp only [Bool.true_eq_false, if_false, if_true]
      omega
  | false => simpa using hopen

/-! ## Runs of the collector -/

/-- The event is a tick of the poll loop. -/
def IsTick (e : CollectorEvent) : Prop := ∃ now bench, e = .tick now bench

theorem collectorRun_concat (events : List CollectorEvent) (e : CollectorEvent) :
    collectorRun (events ++ [e]) = collectorStep (collectorRun events) e := by
  unfold collectorRun
  rw [List.foldl_append]
  rfl

/-- Requests and restarts do not bring a forgotten incident back to mind. -/
theorem Forgotten.run {events more : List CollectorEvent} (h : Forgotten (collectorRun events))
    (hmore : ∀ e ∈ more, ¬ IsTick e) : Forgotten (collectorRun (events ++ more)) := by
  induction more using List.reverseRecOn with
  | nil => rwa [List.append_nil]
  | append_singleton more e ih =>
      have hbefore := ih fun x hx => hmore x (by simp [hx])
      rw [← List.append_assoc, collectorRun_concat]
      cases e with
      | start now reason minutes => exact hbefore.request _
      | stop now => exact hbefore.request _
      | tick now bench => exact absurd ⟨now, bench, rfl⟩ (hmore _ (by simp))
      | restart now => exact ⟨rfl, by rw [collectorStep, openWindows_restart]; exact hbefore.2⟩

/-- The events up to the first tick, when there is one. -/
theorem exists_first_tick {events : List CollectorEvent} (h : ∃ e ∈ events, IsTick e) :
    ∃ pre now bench post, events = pre ++ .tick now bench :: post ∧ ∀ e ∈ pre, ¬ IsTick e := by
  induction events with
  | nil => exact absurd h (by simp)
  | cons e events ih =>
      by_cases he : IsTick e
      · obtain ⟨now, bench, rfl⟩ := he
        exact ⟨[], now, bench, events, rfl, by simp⟩
      · obtain ⟨x, hx, htick⟩ := h
        have hrest : ∃ y ∈ events, IsTick y := by
          rcases List.mem_cons.1 hx with rfl | hx
          · exact absurd htick he
          · exact ⟨x, hx, htick⟩
        obtain ⟨pre, now, bench, post, rfl, hpre⟩ := ih hrest
        refine ⟨e :: pre, now, bench, post, rfl, ?_⟩
        intro y hy
        rcases List.mem_cons.1 hy with rfl | hy
        · exact he
        · exact hpre y hy

/-- After every tick of a run one maintenance incident is open when a window is active, and none
when not. -/
def AlwaysConsistent (events : List CollectorEvent) : Prop :=
  ∀ pre now bench post, events = pre ++ .tick now bench :: post →
    Consistent (collectorRun (pre ++ [.tick now bench]))

/-- No restart that a tick follows comes while a maintenance incident is open. -/
def QuietRestarts (events : List CollectorEvent) : Prop :=
  ∀ pre now post, events = pre ++ .restart now :: post → (∃ e ∈ post, IsTick e) →
    openWindows (collectorRun pre) = 0

/-- Where restarts find no incident open, the loop knows what is open before each tick. -/
theorem known_of_quiet {events : List CollectorEvent} (quiet : QuietRestarts events)
    {pre post : List CollectorEvent} (heq : events = pre ++ post) (htick : ∃ e ∈ post, IsTick e) :
    Known (collectorRun pre) := by
  induction pre using List.reverseRecOn generalizing post with
  | nil => rfl
  | append_singleton pre e ih =>
      have heq' : events = pre ++ e :: post := by rw [heq, List.append_assoc]; rfl
      obtain ⟨x, hx, hxtick⟩ := htick
      have hknown := ih heq' ⟨x, List.mem_cons_of_mem e hx, hxtick⟩
      rw [collectorRun_concat]
      cases e with
      | start now reason minutes => exact hknown.request _
      | stop now => exact hknown.request _
      | tick now bench => exact (hknown.tick now bench).2
      | restart now =>
          have hnone := quiet pre now post heq' ⟨x, hx, hxtick⟩
          show openWindows ((collectorRun pre).restart now) = 0
          rw [openWindows_restart, hnone]

/-- After every tick one maintenance incident is open exactly while a window is active, if and
only if no restart that a tick follows comes while a maintenance incident is open. -/
theorem consistent_iff_quiet (events : List CollectorEvent) :
    AlwaysConsistent events ↔ QuietRestarts events := by
  constructor
  · intro h pre now post heq htick
    by_contra hopen
    obtain ⟨before, tickNow, bench, after, rfl, hbefore⟩ := exists_first_tick htick
    have hforgot : Forgotten (collectorRun (pre ++ [.restart now])) := by
      rw [collectorRun_concat]
      exact ⟨rfl, by rw [collectorStep, openWindows_restart]; exact hopen⟩
    have hlater := (hforgot.run hbefore).tick tickNow bench
    apply hlater
    have hconsistent := h (pre ++ [.restart now] ++ before) tickNow bench after (by simp [heq])
    rw [collectorRun_concat] at hconsistent
    exact hconsistent
  · intro quiet pre now bench post heq
    have hknown : Known (collectorRun pre) :=
      known_of_quiet quiet heq ⟨_, List.mem_cons_self .., now, bench, rfl⟩
    rw [collectorRun_concat]
    exact (hknown.tick now bench).1

/-- A restart inside a window. -/
def restartInside : List CollectorEvent :=
  [.start 0 "driver update" 30, .tick 5 none, .restart 10, .tick 15 none]

theorem incident_left_open : ¬ ∀ events, AlwaysConsistent events := by
  intro h
  have hlast := h restartInside [.start 0 "driver update" 30, .tick 5 none, .restart 10] 15 none []
    rfl
  exact absurd hlast (by decide +kernel)

end Lss.Analysis.MaintenanceIncidents
