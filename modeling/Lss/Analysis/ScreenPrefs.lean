import Lss.Analysis.ScreenServers

/-!
# What the screen remembers

Preferences that are read back give the look that they were made of. After any run the file holds
the look on screen, or nothing has changed since the file was read; so a screen that is started
again looks the same, and with `--no-save` the file is what it was.
-/

set_option autoImplicit false

namespace Lss.Analysis.ScreenPrefs

open Lss.Library Lss.Model.Screen Lss.Analysis.ScreenServers

/-- What a person chooses with keys and what is remembered for the next time. -/
structure Look where
  light : Bool
  pinned : Option Shape
  range : String
  dash : Bool
  chartLines : Bool

/-- The look of an app. -/
def look (a : App) : Look :=
  { light := a.light
    pinned := a.pinned
    range := rangeLabel a.rangeIdx
    dash := a.dash
    chartLines := a.chartLines }

/-! ## Preferences and looks -/

theorem fromName_elim (pinned : Option Shape) :
    Shape.fromName (pinned.elim "auto" Shape.name) = pinned := by
  cases pinned with
  | none => decide
  | some s => cases s <;> decide

theorem rangeLabel_mem (idx : ℕ) : rangeLabel idx ∈ ranges := by
  have below : idx % ranges.length < ranges.length := Nat.mod_lt _ (by simp [ranges])
  unfold rangeLabel
  rw [List.getElem?_eq_getElem below]
  exact List.getElem_mem below

theorem rangeLabel_idxOf {label : String} (h : label ∈ ranges) :
    rangeLabel (ranges.idxOf label) = label := by
  have below := List.idxOf_lt_length_of_mem h
  unfold rangeLabel
  rw [Nat.mod_eq_of_lt below, List.getElem?_eq_getElem below, List.getElem_idxOf]
  rfl

/-- Preferences that are read back give the look that they were made of. -/
theorem look_apply_of (a b : App) : look ((Prefs.of a).apply b) = look a := by
  unfold look Prefs.apply Prefs.of
  simp only [fromName_elim, rangeLabel_mem, if_true, rangeLabel_idxOf, Look.mk.injEq, true_and]
  refine ⟨?_, ?_, ?_⟩
  · cases a.light <;> simp
  · cases a.dash <;> simp
  · cases a.chartLines <;> simp

/-- Equal preferences come from equal looks. -/
theorem look_of_prefs {a b : App} (h : Prefs.of a = Prefs.of b) : look a = look b := by
  rw [← look_apply_of a a, h, look_apply_of]

/-- What `$LSS_CHART` makes of a look. -/
def charted (chart : Option String) (l : Look) : Look :=
  { l with chartLines := resolveChartLines chart l.chartLines }

theorem charted_charted (chart : Option String) (l : Look) :
    charted chart (charted chart l) = charted chart l := by
  unfold charted resolveChartLines
  by_cases lines : chart = some "lines"
  · simp [lines]
  by_cases dots : chart = some "dots"
  · simp [dots]
  · simp [lines, dots]

variable {e : Env}

theorem look_startApp_written (a : App) :
    look (e.startApp (some (some (Prefs.of a)))) = charted e.chart (look a) := by
  rw [← look_apply_of a]
  rfl

theorem charted_startApp (file : PrefsFile) :
    charted e.chart (look (e.startApp file)) = look (e.startApp file) := by
  have once : ∃ l, look (e.startApp file) = charted e.chart l := by
    cases file with
    | none => exact ⟨look { e.startApp none with chartLines := false }, rfl⟩
    | some f => exact ⟨look ((loadPrefs f).apply (e.startApp none)), rfl⟩
  obtain ⟨l, hl⟩ := once
  rw [hl, charted_charted]

/-! ## Whole runs -/

/-- The screen knows what it has written last, and the file holds it or has never been written. -/
structure Remembered (e : Env) (file : PrefsFile) (w : World) : Prop where
  saves : w.saver.saves = (e.hasPath && !e.noSave)
  saved : w.saver.saved = Prefs.of w.app
  unsaved : w.saver.saves = false → w.file = file
  file : w.saver.saves = true →
    w.file = some (some (Prefs.of w.app)) ∨
      w.file = file ∧ Prefs.of w.app = Prefs.of (e.startApp file)

theorem remembered_start (file : PrefsFile) : Remembered e file (start e file) where
  saves := rfl
  saved := rfl
  unsaved := fun _ => rfl
  file := fun _ => .inr ⟨rfl, rfl⟩

theorem remembered_note {file : PrefsFile} {w : World} (h : Remembered e file w) (a : App) :
    Remembered e file { w with
      app := a
      saver := (w.saver.note w.file (Prefs.of a)).1
      file := (w.saver.note w.file (Prefs.of a)).2 } := by
  unfold Saver.note
  by_cases same : Prefs.of a = w.saver.saved
  · rw [if_pos same]
    exact {
      saves := h.saves
      saved := same.symm
      unsaved := h.unsaved
      file := by
        have kept : Prefs.of a = Prefs.of w.app := same.trans h.saved
        dsimp only
        rw [kept]
        exact h.file }
  · rw [if_neg same]
    exact {
      saves := h.saves
      saved := rfl
      unsaved := fun off => by
        dsimp only at off ⊢
        rw [off]
        exact h.unsaved off
      file := fun on => by
        dsimp only at on ⊢
        rw [on]
        exact .inl rfl }

theorem remembered_step {file : PrefsFile} {w : World} (h : Remembered e file w) (v : Event) :
    Remembered e file (step e w v).1 := by
  obtain aside | ⟨k, -, stays, stepped⟩ := step_cases (e := e) w v
  · exact {
      saves := aside.saver ▸ h.saves
      saved := by rw [aside.saver, aside.app.prefs]; exact h.saved
      unsaved := by rw [aside.saver, aside.file]; exact h.unsaved
      file := by rw [aside.saver, aside.file, aside.app.prefs]; exact h.file }
  · rw [stepped]
    unfold keyStep
    rw [if_neg (by simp [stays])]
    have noted := remembered_note h (settle e w.clock (w.app.onKey k))
    exact { noted with }

theorem remembered_run (file : PrefsFile) (events : List Event) :
    Remembered e file (Machine.run (step e) (start e file) events).1 :=
  Machine.run_induction (step e) (fun _ w _ => Remembered e file w) (remembered_start file)
    (fun _ _ _ v h => remembered_step h v) events

/-- A screen that is started again with the file that a run has left looks as it did at the end of
that run, but for the charts where `$LSS_CHART` says otherwise. Without a path or with `--no-save`
the file is what it was. -/
theorem restart_looks_the_same (file : PrefsFile) (events : List Event) :
    let w := (Machine.run (step e) (start e file) events).1
    ((e.hasPath && !e.noSave) = true →
      look (e.startApp w.file) = charted e.chart (look w.app)) ∧
    ((e.hasPath && !e.noSave) = false → w.file = file) := by
  intro w
  have h : Remembered e file w := remembered_run file events
  rw [← h.saves]
  refine ⟨fun on => ?_, h.unsaved⟩
  obtain written | ⟨kept, same⟩ := h.file on
  · rw [written, look_startApp_written]
  · rw [kept, look_of_prefs same, charted_startApp]

end Lss.Analysis.ScreenPrefs
