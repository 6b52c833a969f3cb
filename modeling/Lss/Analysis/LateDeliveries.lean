import Lss.Library.Machine
import Lss.Library.Trail
import Lss.Model.LateDelivery

/-!
# Alerts delivered late are forgotten

An id that was appended is returned by a take, is in the hands of one, or is in a file that a take
will read. It is forgotten when it is written to a file that was read already, and when the
collector stops in the course of a take. And every take removes its file before the alerts are
marked.
-/

set_option autoImplicit false

open scoped List

namespace Lss.Analysis.LateDeliveries

open Lss.Library Lss.Model.LateDelivery

/-! ## What is asked for -/

/-- The ids that a take has read and not returned yet. -/
def inHand (s : World) : List ℤ :=
  match s.phase with
  | .read ids => ids
  | .removed ids => ids
  | _ => []

/-- The ids in the files that a take will read: the one that the script appends to, and the one that
was just renamed. -/
def toRead (s : World) : List ℤ :=
  s.idsIn s.ids ++ if s.phase = .renamed then s.idsIn s.taken else []

/-- Every id that was appended is there once. -/
def Accounted (s : World) : Prop := s.appended ~ s.returned ++ inHand s ++ toRead s

/-- Nothing is forgotten, and nothing was removed from disk before it was marked. -/
def Kept (s : World) : Prop := Accounted s ∧ s.early = []

/-! ## What must not happen -/

/-- The ids of the take that is under way. -/
def underWay (s : World) : List ℤ :=
  inHand s ++ if s.phase = .renamed then s.idsIn s.taken else []

/-- A line is written to a file that will be read, the collector stops without ids in a take, and no
file goes away with an id that is not marked. -/
def Careful (s : World) : Action → Prop
  | .write w _ => ∀ f, s.writers w = .opened f →
      s.ids = some f ∨ s.taken = some f ∧ s.phase = .renamed
  | .stop => underWay s = []
  | .rename => s.phase = .idle → s.ids ≠ none → s.unmarkedTaken = []
  | .remove => (∃ ids, s.phase = .read ids) → s.unmarkedTaken = []
  | _ => True

/-- What is lost in a step. -/
def lost (s : World) : Action → List ℤ
  | .write w id =>
    match s.writers w with
    | .opened f => if s.ids = some f ∨ s.taken = some f ∧ s.phase = .renamed then [] else [id]
    | _ => []
  | .stop => underWay s
  | _ => []

/-- What is removed from disk too early in a step. -/
def removedEarly (s : World) : Action → List ℤ
  | .rename => if s.phase = .idle ∧ s.ids ≠ none then s.unmarkedTaken else []
  | .remove =>
    match s.phase with
    | .read _ => s.unmarkedTaken
    | _ => []
  | _ => []

theorem careful_iff (s : World) (a : Action) :
    Careful s a ↔ lost s a = [] ∧ removedEarly s a = [] := by
  cases a with
  | write w id =>
      cases hw : s.writers w <;> simp [Careful, lost, removedEarly, hw, or_iff_not_imp_left]
  | rename => simp [Careful, lost, removedEarly]
  | remove => cases hp : s.phase <;> simp [Careful, lost, removedEarly, hp]
  | _ => simp [Careful, lost, removedEarly]

/-! ## The files -/

/-- The two names lead to two files, and what is not made yet is empty. -/
structure Apart (s : World) : Prop where
  names : ∀ f, s.ids = some f → s.taken ≠ some f
  ids_made : ∀ f, s.ids = some f → f < s.files
  taken_made : ∀ f, s.taken = some f → f < s.files
  opened_made : ∀ w f, s.writers w = .opened f → f < s.files
  fresh : ∀ f, s.files ≤ f → s.content f = []

theorem apart_start : Apart {} where
  names := by simp
  ids_made := by simp
  taken_made := by simp
  opened_made := by simp
  fresh := by simp

/-- What a call of the script does to where the calls stand makes no file. -/
theorem opened_update {s : World} (h : Apart s) {w : ℕ} {at_ : Writer} {files : ℕ}
    (more : s.files ≤ files) (made : ∀ f, at_ = .opened f → f < files) (v f : ℕ)
    (hv : Function.update s.writers w at_ v = .opened f) : f < files := by
  by_cases here : v = w
  · rw [here, Function.update_self] at hv
    exact made f hv
  · rw [Function.update_of_ne here] at hv
    exact Nat.lt_of_lt_of_le (h.opened_made v f hv) more

theorem apart_openIds {s : World} (h : Apart s) (w : ℕ) : Apart (openIds s w) := by
  unfold openIds
  split
  case h_1 f _ hids =>
    exact { h with
      opened_made := opened_update h (Nat.le_refl _) (by
        rintro g hg
        cases hg
        exact h.ids_made f hids) }
  case h_2 hids =>
    exact {
      names := by
        rintro f hf htaken
        cases hf
        exact absurd (h.taken_made _ htaken) (Nat.lt_irrefl _)
      ids_made := by
        rintro f hf
        cases hf
        exact Nat.lt_succ_self _
      taken_made := fun f hf => Nat.lt_succ_of_lt (h.taken_made f hf)
      opened_made := opened_update h (Nat.le_succ _) (by
        rintro g hg
        cases hg
        exact Nat.lt_succ_self _)
      fresh := fun f hf => h.fresh f (Nat.le_of_succ_le hf) }
  case h_3 => exact h

theorem apart_writeId {s : World} (h : Apart s) (w : ℕ) (id : ℤ) : Apart (writeId s w id) := by
  unfold writeId
  split
  case h_1 f hw =>
    exact { h with
      opened_made := opened_update h (Nat.le_refl _) (by simp)
      fresh := by
        intro g hg
        have made := h.opened_made w f hw
        dsimp only at hg ⊢
        rw [Function.update_of_ne (by omega)]
        exact h.fresh g hg }
  case h_2 => exact h

theorem apart_renameIds {s : World} (h : Apart s) : Apart (renameIds s) := by
  unfold renameIds
  split
  case h_1 f _ hids =>
    exact { h with
      names := by simp
      ids_made := by simp
      taken_made := by
        rintro g hg
        cases hg
        exact h.ids_made f hids }
  case h_2 => exact h

/-- Nothing that happens makes the two names lead to one file. -/
theorem apart_step {s : World} (h : Apart s) (a : Action) : Apart (step s a) := by
  cases a with
  | openIds w => exact apart_openIds h w
  | write w id => exact apart_writeId h w id
  | close w => exact { h with opened_made := opened_update h (Nat.le_refl _) (by simp) }
  | rename => exact apart_renameIds h
  | read =>
      dsimp only [step]
      split
      · exact { h with }
      · exact h
  | remove =>
      dsimp only [step]
      split
      · exact { h with
          names := by simp
          taken_made := by simp }
      · exact h
  | give =>
      dsimp only [step]
      split
      · exact { h with }
      · exact h
  | mark =>
      dsimp only [step]
      split
      · exact { h with }
      · exact { h with }
      · exact h
  | stop => exact { h with }
  | start =>
      dsimp only [step]
      split
      · exact { h with }
      · exact h

/-! ## The accounts -/

/-- How often an id is there: returned, in the hands of a take, or in a file that will be read. -/
def settled (s : World) : List ℤ := s.returned ++ inHand s ++ toRead s

/-- The ids a name leads to when one more is written to a file. -/
theorem idsIn_update (s : World) (name : Option ℕ) (f : ℕ) (id : ℤ) (writers : ℕ → Writer)
    (appended : List ℤ) :
    World.idsIn { s with
      content := Function.update s.content f (s.content f ++ [id])
      writers := writers
      appended := appended } name =
      s.idsIn name ++ if name = some f then [id] else [] := by
  cases name with
  | none => rfl
  | some g =>
      by_cases here : g = f
      · simp [World.idsIn, here]
      · simp [World.idsIn, here]

/-- The accounts balance, up to some ids that were lost. -/
def Balanced (s : World) (x : ℤ) (l : List ℤ) : Prop :=
  s.appended.count x = (settled s).count x + l.count x

section Accounts

variable {s : World} {x : ℤ} {l : List ℤ}

theorem balanced_openIds (h : Apart s) (before : Balanced s x l) (w : ℕ) :
    Balanced (openIds s w) x l := by
  unfold openIds
  split
  case h_1 => exact before
  case h_2 hids =>
    have empty := h.fresh s.files (Nat.le_refl _)
    simpa [Balanced, settled, toRead, inHand, World.idsIn, hids, empty] using before
  case h_3 => exact before

/-- A line is lost where no take will read the file that it is written to. -/
theorem lost_write {w f : ℕ} (hw : s.writers w = .opened f) (id : ℤ) :
    lost s (.write w id) =
      if s.ids = some f ∨ s.taken = some f ∧ s.phase = .renamed then [] else [id] := by
  simp only [lost, hw]

theorem balanced_writeId (h : Apart s) (before : Balanced s x l) (w : ℕ) (id : ℤ) :
    Balanced (writeId s w id) x (l ++ lost s (.write w id)) := by
  unfold writeId
  split
  case h_1 f hw =>
    rw [lost_write hw]
    unfold Balanced settled toRead at *
    rw [idsIn_update, idsIn_update]
    simp only [List.count_append] at *
    change _ = List.count x s.returned + List.count x (inHand s) + _ + _
    by_cases current : s.ids = some f
    · have other : s.taken ≠ some f := h.names f current
      rw [if_pos current, if_neg other, if_pos (Or.inl current), List.append_nil, List.count_nil]
      omega
    · rw [if_neg current, List.count_nil]
      by_cases reading : s.phase = .renamed
      · by_cases here : s.taken = some f
        · simp only [reading, if_true, here, and_self, or_true, List.count_append,
            List.count_nil] at *
          omega
        · simp only [reading, if_true, here, current, false_and, or_self, if_false,
            List.append_nil] at *
          omega
      · simp only [reading, current, and_false, or_self, if_false, List.count_nil] at *
        omega
  case h_2 w' not =>
    have none' : lost s (.write w id) = [] := by
      simp only [lost]
    rw [none', List.append_nil]
    exact before

theorem balanced_renameIds (before : Balanced s x l) : Balanced (renameIds s) x l := by
  unfold renameIds
  split
  case h_1 f hphase hids =>
    simpa [Balanced, settled, toRead, inHand, World.idsIn, hids, hphase] using before
  case h_2 => exact before

/-- What is appended in a step is settled by it or lost in it, and nothing else is lost. -/
theorem balanced_step (h : Apart s) (before : Balanced s x l) (a : Action) :
    Balanced (step s a) x (l ++ lost s a) := by
  cases a with
  | openIds w =>
      rw [show lost s (.openIds w) = [] from rfl, List.append_nil]
      exact balanced_openIds h before w
  | write w id => exact balanced_writeId h before w id
  | close w =>
      rw [show lost s (.close w) = [] from rfl, List.append_nil]
      exact before
  | rename =>
      rw [show lost s .rename = [] from rfl, List.append_nil]
      exact balanced_renameIds before
  | read =>
      dsimp only [step]
      split
      case h_1 hphase =>
        simp only [Balanced, settled, toRead, inHand, lost, hphase, List.count_append] at *
        simp [World.idsIn] at *
        omega
      case h_2 => simpa [lost] using before
  | remove =>
      dsimp only [step]
      split
      case h_1 ids hphase =>
        simpa [Balanced, settled, toRead, inHand, lost, World.idsIn, hphase] using before
      case h_2 => simpa [lost] using before
  | give =>
      dsimp only [step]
      split
      case h_1 ids hphase =>
        simpa [Balanced, settled, toRead, inHand, lost, World.idsIn, hphase] using before
      case h_2 => simpa [lost] using before
  | mark =>
      dsimp only [step]
      split
      case h_1 hphase =>
        simpa [Balanced, settled, toRead, inHand, lost, World.idsIn, hphase] using before
      case h_2 id ids hphase =>
        simpa [Balanced, settled, toRead, inHand, lost, World.idsIn, hphase] using before
      case h_3 => simpa [lost] using before
  | stop =>
      -- what the take has goes with it
      simp only [Balanced, settled, toRead, lost, underWay, List.count_append] at *
      simp only [step, inHand, reduceCtorEq, if_false, List.count_nil, World.idsIn] at *
      omega
  | start =>
      dsimp only [step]
      split
      case h_1 hphase =>
        simpa [Balanced, settled, toRead, inHand, lost, World.idsIn, hphase] using before
      case h_2 => simpa [lost] using before

end Accounts

/-- What is removed from disk too early is on record. -/
theorem early_step (s : World) (a : Action) : (step s a).early = s.early ++ removedEarly s a := by
  cases a with
  | openIds w =>
      dsimp only [step, openIds]
      split <;> simp [removedEarly]
  | write w id =>
      dsimp only [step, writeId]
      split <;> simp [removedEarly]
  | close w => simp [step, removedEarly]
  | rename =>
      dsimp only [step, renameIds]
      split
      case h_1 f hphase hids => simp [removedEarly, hphase, hids]
      case h_2 other =>
        have not : ¬ (s.phase = .idle ∧ s.ids ≠ none) := by
          rintro ⟨hphase, hids⟩
          obtain ⟨f, hf⟩ := Option.ne_none_iff_exists'.mp hids
          exact other f hphase hf
        rw [removedEarly, if_neg not, List.append_nil]
  | read =>
      dsimp only [step]
      split <;> simp [removedEarly]
  | remove =>
      dsimp only [step]
      split
      case h_1 ids hphase => simp [removedEarly, hphase]
      case h_2 other =>
        cases hphase : s.phase with
        | read ids => exact absurd hphase (other ids)
        | _ => simp [removedEarly, hphase]
  | give =>
      dsimp only [step]
      split <;> simp [removedEarly]
  | mark =>
      dsimp only [step]
      split <;> simp [removedEarly]
  | stop => simp [step, removedEarly]
  | start =>
      dsimp only [step]
      split <;> simp [removedEarly]

/-! ## Runs -/

theorem run_concat (actions : List Action) (a : Action) :
    run (actions ++ [a]) = step (run actions) a := by
  simp [run]

theorem apart_run (actions : List Action) : Apart (run actions) := by
  induction actions using List.reverseRecOn with
  | nil => exact apart_start
  | append_singleton actions a ih =>
      rw [run_concat]
      exact apart_step ih a

/-- No action of a run loses anything. -/
def NothingLost : List Action → Prop := EachAfter fun before a => lost (run before) a = []

/-- Each action of a run is taken with care where it is taken. -/
def CarefulRun : List Action → Prop := EachAfter fun before a => Careful (run before) a

/-- A run balances up to what its actions lost. -/
theorem exists_balanced_run (actions : List Action) :
    ∃ l, (∀ x, Balanced (run actions) x l) ∧ (l = [] ↔ NothingLost actions) := by
  induction actions using List.reverseRecOn with
  | nil => exact ⟨[], fun x => rfl, by simp [NothingLost, eachAfter_nil]⟩
  | append_singleton actions a ih =>
      obtain ⟨l, balanced, clean⟩ := ih
      refine ⟨l ++ lost (run actions) a, fun x => ?_, ?_⟩
      · rw [run_concat]
        exact balanced_step (apart_run actions) (balanced x) a
      · rw [NothingLost, eachAfter_concat, ← NothingLost, ← clean, List.append_eq_nil_iff]

/-- Nothing is on record as removed too early where no action removed anything too early. -/
theorem early_run_eq_nil_iff (actions : List Action) :
    (run actions).early = [] ↔
      EachAfter (fun before a => removedEarly (run before) a = []) actions := by
  induction actions using List.reverseRecOn with
  | nil => simp [run, eachAfter_nil]
  | append_singleton actions a ih =>
      rw [run_concat, early_step, eachAfter_concat, List.append_eq_nil_iff, ih]

theorem carefulRun_iff (actions : List Action) :
    CarefulRun actions ↔ NothingLost actions ∧ (run actions).early = [] := by
  rw [early_run_eq_nil_iff]
  constructor
  · intro careful
    exact ⟨careful.imp fun before a h => ((careful_iff _ a).mp h).1,
      careful.imp fun before a h => ((careful_iff _ a).mp h).2⟩
  · rintro ⟨kept, late⟩ before a after split
    exact (careful_iff _ a).mpr ⟨kept before a after split, late before a after split⟩

/-- The accounts are settled where nothing was lost. -/
theorem accounted_iff {s : World} {l : List ℤ} (balanced : ∀ x, Balanced s x l) :
    Accounted s ↔ l = [] := by
  unfold Accounted
  rw [List.perm_iff_count]
  constructor
  · intro same
    rw [List.eq_nil_iff_forall_not_mem]
    intro x hx
    have here := balanced x
    have there := same x
    have some := List.count_pos_iff.mpr hx
    unfold Balanced settled at here
    omega
  · rintro rfl x
    simpa [Balanced, settled] using balanced x

theorem accounted_run_iff (actions : List Action) :
    Accounted (run actions) ↔ NothingLost actions := by
  obtain ⟨l, balanced, clean⟩ := exists_balanced_run actions
  rw [accounted_iff balanced, clean]

theorem kept_run_iff (actions : List Action) : Kept (run actions) ↔ CarefulRun actions := by
  rw [Kept, accounted_run_iff, carefulRun_iff]

/-- Every id is accounted for at all times exactly where no line is written to a file that was read
already and the collector never stops with ids in a take. -/
theorem always_accounted_iff (actions : List Action) :
    (∀ before, before <+: actions → Accounted (run before)) ↔ NothingLost actions := by
  constructor
  · intro always
    exact (accounted_run_iff actions).mp (always actions List.prefix_rfl)
  · intro kept before hbefore
    exact (accounted_run_iff before).mpr (EachAfter.of_prefix kept hbefore)

/-- In whatever order the script and the collector take their steps, and wherever the collector
stops, nothing is ever forgotten exactly where each step was taken with care. -/
theorem always_kept_iff (actions : List Action) :
    (∀ before, before <+: actions → Kept (run before)) ↔ CarefulRun actions := by
  constructor
  · intro always
    exact (kept_run_iff actions).mp (always actions List.prefix_rfl)
  · intro careful before hbefore
    exact (kept_run_iff before).mpr (EachAfter.of_prefix careful hbefore)

/-- The script opens the file, the collector takes and reads it, and then the line is written. -/
def lateLine : List Action := [.openIds 0, .rename, .read, .write 0 41, .remove, .give, .mark]

/-- The id is in no file that will be read and was not returned. -/
theorem late_line_forgotten :
    ¬ ∀ actions before : List Action, before <+: actions → Kept (run before) := by
  intro always
  have kept := (always lateLine lateLine List.prefix_rfl).1.length_eq
  simp [lateLine, run, step, openIds, writeId, renameIds, World.idsIn, inHand, toRead] at kept

end Lss.Analysis.LateDeliveries
