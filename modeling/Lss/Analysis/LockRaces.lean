import Lss.Model.BenchLock

/-!
# Who has the benchmark's lock

The lock file is visible before it is written, and a stale one is removed and created again in
two steps. A caller that reads the file of another one before it is written takes it for a
stale one, and a caller that removes a stale file may remove the one another caller has put in
its place; where neither happens, at most one caller has the lock.
-/

set_option autoImplicit false

namespace Lss.Analysis.LockRaces

open Lss.Model

variable {ι : Type} [DecidableEq ι]

/-- The caller has the lock. -/
def HasLock (s : Stage ι) : Prop := s = .write ∨ s = .locked ∨ s = .running

instance (s : Stage ι) : Decidable (HasLock s) := inferInstanceAs (Decidable (_ ∨ _ ∨ _))

/-- The callers start: the lock file, if there is one, is none of theirs. -/
structure Fresh (w : BenchWorld ι) : Prop where
  file : ∀ f, w.file = some f → f.owner = .before
  stage : ∀ i, w.stage i = .check

/-- The next step of a caller does not run into one of another caller: a file that it reads has
been written by whoever created it, and a file that it removes is the one it has read. -/
def Undisturbed (w : BenchWorld ι) (i : ι) : Prop :=
  match w.stage i with
  | .read _ => ∀ f, w.file = some f → ∀ j, f.owner = .caller j → w.stage j ≠ .write
  | .remove _ seen => ∀ f, w.file = some f → seen = some f.owner
  | _ => True

/-- No step of a run runs into one of another caller. -/
def UndisturbedRun (alive : ℤ → Bool) (callers : ι → BenchCaller) : BenchWorld ι → List ι → Prop
  | _, [] => True
  | w, i :: order =>
    Undisturbed w i ∧ UndisturbedRun alive callers (benchStep alive callers w i) order

/-- What holds of the lock file in such a run. -/
structure LockInv (callers : ι → BenchCaller) (w : BenchWorld ι) : Prop where
  /-- whoever has the lock has created the file that is there -/
  holder : ∀ i, HasLock (w.stage i) → ∃ f, w.file = some f ∧ f.owner = .caller i
  /-- a file that was created is written next -/
  written : ∀ f, w.file = some f → ∀ j, f.owner = .caller j →
    w.stage j = .write ∨ f.held.pid = some (callers j).pid
  /-- what was read of another caller's file names the caller -/
  tested : ∀ i a held seen, w.stage i = .test a held seen → ∀ j, seen = some (.caller j) →
    held.pid = some (callers j).pid
  /-- no caller's file is about to be removed -/
  removed : ∀ i a seen, w.stage i = .remove a seen → ∀ j, seen ≠ some (.caller j)

omit [DecidableEq ι] in
theorem Fresh.lockInv {callers : ι → BenchCaller} {w : BenchWorld ι} (h : Fresh w) :
    LockInv callers w where
  holder i hi := by
    rw [h.stage i] at hi
    rcases hi with hi | hi | hi <;> exact absurd hi (by simp)
  written f hf j hj := by
    rw [h.file f hf] at hj
    exact absurd hj (by simp)
  tested i a held seen hi := by
    rw [h.stage i] at hi
    exact absurd hi (by simp)
  removed i a seen hi := by
    rw [h.stage i] at hi
    exact absurd hi (by simp)

@[simp] theorem goto_file (w : BenchWorld ι) (i : ι) (s : Stage ι) : (w.goto i s).file = w.file := rfl

theorem goto_stage (w : BenchWorld ι) (i : ι) (s : Stage ι) (k : ι) :
    (w.goto i s).stage k = if k = i then s else w.stage k := by
  exact Function.update_apply w.stage i s k

/-- A step that leaves the file and has nothing to do with the lock. -/
theorem LockInv.goto {callers : ι → BenchCaller} {w : BenchWorld ι} (h : LockInv callers w) {i : ι}
    {s : Stage ι} (hlock : HasLock s → HasLock (w.stage i)) (hwrite : w.stage i ≠ .write)
    (htest : ∀ a held seen, s = .test a held seen → ∀ j, seen = some (.caller j) →
      held.pid = some (callers j).pid)
    (hremove : ∀ a seen, s = .remove a seen → ∀ j, seen ≠ some (.caller j)) :
    LockInv callers (w.goto i s) where
  holder k hk := by
    rw [goto_stage] at hk
    split at hk
    · next heq =>
        subst heq
        exact h.holder k (hlock hk)
    · exact h.holder k hk
  written f hf j hj := by
    rcases h.written f hf j hj with hj' | hj'
    · left
      rw [goto_stage, if_neg]
      · exact hj'
      · rintro rfl
        exact hwrite hj'
    · exact Or.inr hj'
  tested k a held seen hk := by
    rw [goto_stage] at hk
    split at hk
    · exact htest a held seen hk
    · exact h.tested k a held seen hk
  removed k a seen hk := by
    rw [goto_stage] at hk
    split at hk
    · exact hremove a seen hk
    · exact h.removed k a seen hk

/-- A step that leaves no file, by the only caller that may have the lock. -/
theorem LockInv.unlock {callers : ι → BenchCaller} {w : BenchWorld ι} (h : LockInv callers w)
    {i : ι} {s : Stage ι} (hothers : ∀ k, k ≠ i → ¬ HasLock (w.stage k)) (hlock : ¬ HasLock s)
    (htest : ∀ a held seen, s ≠ .test a held seen) (hremove : ∀ a seen, s ≠ .remove a seen) :
    LockInv callers ({ w with file := none }.goto i s) where
  holder k hk := by
    rw [goto_stage] at hk
    split at hk
    · exact absurd hk hlock
    · next hne => exact absurd hk (hothers k hne)
  written f hf := absurd hf (by simp)
  tested k a held seen hk := by
    rw [goto_stage] at hk
    split at hk
    · exact absurd hk (htest a held seen)
    · exact h.tested k a held seen hk
  removed k a seen hk := by
    rw [goto_stage] at hk
    split at hk
    · exact absurd hk (hremove a seen)
    · exact h.removed k a seen hk

omit [DecidableEq ι] in
theorem LockInv.exclusive {callers : ι → BenchCaller} {w : BenchWorld ι} (h : LockInv callers w)
    {i j : ι} (hi : HasLock (w.stage i)) (hj : HasLock (w.stage j)) : i = j := by
  obtain ⟨f, hf, hfi⟩ := h.holder i hi
  obtain ⟨g, hg, hgj⟩ := h.holder j hj
  rw [hf, Option.some.injEq] at hg
  subst hg
  rw [hfi, Owner.caller.injEq] at hgj
  exact hgj

/-- A step that does not run into one of another caller. -/
theorem LockInv.step {alive : ℤ → Bool} {callers : ι → BenchCaller}
    (live : ∀ i, pidAlive alive (asI32 (callers i).pid) = true) {w : BenchWorld ι}
    (h : LockInv callers w) {i : ι} (clean : Undisturbed w i) :
    LockInv callers (benchStep alive callers w i) := by
  unfold benchStep
  unfold Undisturbed at clean
  dsimp only
  cases hs : w.stage i with
  | check =>
      dsimp only
      split
      · exact h.goto (by simp [HasLock]) (by simp [hs]) (by simp) (by simp)
      · split
        · exact h.goto (by simp [HasLock]) (by simp [hs]) (by simp) (by simp)
        · exact h.goto (by simp [HasLock]) (by simp [hs]) (by simp) (by simp)
  | create attempt =>
      dsimp only
      split
      · exact h.goto (by simp [HasLock]) (by simp [hs]) (by simp) (by simp)
      · split
        · exact h.goto (by simp [HasLock]) (by simp [hs]) (by simp) (by simp)
        · cases hfile : w.file with
          | some f => exact h.goto (by simp [HasLock]) (by simp [hs]) (by simp) (by simp)
          | none =>
              -- no file is there, so nobody has the lock
              have hnobody : ∀ k, ¬ HasLock (w.stage k) := by
                intro k hk
                obtain ⟨f, hf, -⟩ := h.holder k hk
                rw [hfile] at hf
                exact absurd hf (by simp)
              refine ⟨?_, ?_, ?_, ?_⟩
              · intro k hk
                rw [goto_stage] at hk
                split at hk
                · next heq => exact ⟨⟨.caller i, {}⟩, rfl, by rw [heq]⟩
                · exact absurd hk (hnobody k)
              · intro f hf k hk
                rw [goto_file, Option.some.injEq] at hf
                subst hf
                rw [Owner.caller.injEq] at hk
                left
                rw [goto_stage, if_pos hk.symm]
              · intro k a held seen hk
                rw [goto_stage] at hk
                split at hk
                · exact absurd hk (by simp)
                · exact h.tested k a held seen hk
              · intro k a seen hk
                rw [goto_stage] at hk
                split at hk
                · exact absurd hk (by simp)
                · exact h.removed k a seen hk
  | write =>
      obtain ⟨f, hf, hown⟩ := h.holder i (Or.inl hs)
      have hfile : w.file.map (fun f : LockFile ι => if f.owner = .caller i then
          { f with held := ⟨some (callers i).pid, some (callers i).profile,
            some (callers i).now⟩ } else f) =
          some { f with held := ⟨some (callers i).pid, some (callers i).profile,
            some (callers i).now⟩ } := by
        rw [hf, Option.map_some, if_pos hown]
      refine ⟨?_, ?_, ?_, ?_⟩
      · intro k hk
        refine ⟨_, hfile, ?_⟩
        rw [goto_stage] at hk
        split at hk
        · next heq => rw [heq]; exact hown
        · exact absurd (h.exclusive hk (Or.inl hs)) ‹_›
      · intro g hg k hk
        rw [goto_file] at hg
        rw [show g = _ from (Option.some.inj (hg.symm.trans hfile))] at hk ⊢
        have hki : k = i := by
          have hboth := hk.symm.trans hown
          rw [Owner.caller.injEq] at hboth
          exact hboth
        right
        rw [hki]
      · intro k a held seen hk
        rw [goto_stage] at hk
        split at hk
        · exact absurd hk (by simp)
        · exact h.tested k a held seen hk
      · intro k a seen hk
        rw [goto_stage] at hk
        split at hk
        · exact absurd hk (by simp)
        · exact h.removed k a seen hk
  | read attempt =>
      rw [hs] at clean
      refine h.goto (by simp [HasLock]) (by simp [hs]) ?_ (by simp)
      -- the file that is read has been written
      intro a held seen heq j hj
      rw [Stage.test.injEq] at heq
      obtain ⟨-, rfl, rfl⟩ := heq
      obtain ⟨f, hf, hown⟩ := Option.map_eq_some_iff.1 hj
      rw [hf]
      exact (h.written f hf j hown).resolve_left (clean f hf j hown)
  | test attempt held seen =>
      dsimp only
      split
      · exact h.goto (by simp [HasLock]) (by simp [hs]) (by simp) (by simp)
      · next hdead =>
          refine h.goto (by simp [HasLock]) (by simp [hs]) (by simp) ?_
          -- a caller's file names a process that is alive
          intro a seen' heq j hj
          rw [Stage.remove.injEq] at heq
          obtain ⟨-, rfl⟩ := heq
          apply hdead
          have hpid := h.tested i attempt held seen hs j hj
          unfold Held.pid32
          rw [hpid]
          exact live j
  | remove attempt seen =>
      rw [hs] at clean
      apply h.unlock _ (by simp [HasLock]) (by simp) (by simp)
      intro k hne hk
      obtain ⟨f, hf, hown⟩ := h.holder k hk
      have hseen := clean f hf
      rw [hown] at hseen
      exact h.removed i attempt seen hs k hseen
  | locked =>
      dsimp only
      have hi : HasLock (w.stage i) := Or.inr (Or.inl hs)
      split
      · exact h.unlock (fun k hne hk => hne (h.exclusive hk hi)) (by simp [HasLock]) (by simp)
          (by simp)
      · have hgoto := h.goto (i := i) (s := .running) (fun _ => hi) (by simp [hs]) (by simp) (by simp)
        exact ⟨hgoto.holder, hgoto.written, hgoto.tested, hgoto.removed⟩
  | running => exact h
  | refused message => exact h

theorem LockInv.run {alive : ℤ → Bool} {callers : ι → BenchCaller}
    (live : ∀ i, pidAlive alive (asI32 (callers i).pid) = true) {w : BenchWorld ι}
    (h : LockInv callers w) {order : List ι} (clean : UndisturbedRun alive callers w order) :
    LockInv callers (benchRun alive callers w order) := by
  induction order generalizing w with
  | nil => exact h
  | cons i order ih =>
      obtain ⟨hfirst, hrest⟩ := clean
      exact ih (h.step live hfirst) hrest

/-- In a run in which no caller reads the lock file of another one before it is written, and
none removes another file than the one it has read, at most one caller has the lock. -/
theorem one_has_lock {alive : ℤ → Bool} {callers : ι → BenchCaller}
    (live : ∀ i, pidAlive alive (asI32 (callers i).pid) = true) {w : BenchWorld ι}
    (fresh : Fresh w) {order : List ι} (clean : UndisturbedRun alive callers w order) (i j : ι)
    (hi : HasLock ((benchRun alive callers w order).stage i))
    (hj : HasLock ((benchRun alive callers w order).stage j)) : i = j :=
  (fresh.lockInv.run live clean).exclusive hi hj

/-- A step that runs into one of another caller leads on to two callers with the lock: here the
caller has read a file that `j` has created and not yet written. -/
theorem disturbed_takes_over {alive : ℤ → Bool} {callers : ι → BenchCaller} {w : BenchWorld ι}
    {i j : ι} (hne : i ≠ j) (hi : w.stage i = .read 0) (hj : w.stage j = .write)
    (hfile : w.file = some ⟨.caller j, {}⟩) (allowed : (callers i).denied = none) :
    HasLock ((benchRun alive callers w [i, i, i, i]).stage i) ∧
      HasLock ((benchRun alive callers w [i, i, i, i]).stage j) := by
  have hdead : pidAlive alive (Held.pid32 {}) = false := by
    unfold pidAlive
    rw [if_pos (by decide)]
  have hread : benchStep alive callers w i =
      w.goto i (.test 0 {} (some (.caller j))) := by
    unfold benchStep
    rw [hi, hfile]
    rfl
  have htest : benchStep alive callers (w.goto i (.test 0 {} (some (.caller j)))) i =
      (w.goto i (.test 0 {} (some (.caller j)))).goto i (.remove 0 (some (.caller j))) := by
    unfold benchStep
    rw [goto_stage, if_pos rfl]
    dsimp only
    rw [if_neg (by rw [hdead]; simp)]
  unfold benchRun
  rw [List.foldl_cons, List.foldl_cons, List.foldl_cons, List.foldl_cons, List.foldl_nil, hread,
    htest]
  have hremove : ∀ v : BenchWorld ι, v.stage i = .remove 0 (some (.caller j)) →
      benchStep alive callers (benchStep alive callers v i) i =
        { ({ v with file := none }.goto i (.create 1)) with file := some ⟨.caller i, {}⟩ }.goto i
          .write := by
    intro v hv
    have hfirst : benchStep alive callers v i = { v with file := none }.goto i (.create 1) := by
      unfold benchStep
      rw [hv]
    rw [hfirst]
    unfold benchStep
    rw [goto_stage, if_pos rfl]
    dsimp only
    rw [if_neg (by omega), allowed]
    rfl
  rw [hremove _ (by rw [goto_stage, if_pos rfl])]
  constructor
  · rw [goto_stage, if_pos rfl]
    exact Or.inl rfl
  · rw [goto_stage, if_neg hne.symm]
    show HasLock (((((w.goto i _).goto i _)).goto i (.create 1)).stage j)
    rw [goto_stage, if_neg hne.symm, goto_stage, if_neg hne.symm, goto_stage, if_neg hne.symm, hj]
    exact Or.inl rfl

/-- Two collectors that share a state directory. -/
def twoCallers (second : Bool) : BenchCaller :=
  { pid := if second then 200 else 100, profile := "quick", now := 0 }

theorem second_is_refused :
    let w : BenchWorld Bool := { file := none }
    let order := [false, false, false, false, true, true, true, true]
    (benchRun (fun _ => true) twoCallers w order).stage false = .running ∧
      ∀ i j, HasLock ((benchRun (fun _ => true) twoCallers w order).stage i) →
        HasLock ((benchRun (fun _ => true) twoCallers w order).stage j) → i = j := by
  refine ⟨by decide, one_has_lock (by decide) ⟨by simp, fun _ => rfl⟩ ?_⟩
  simp [UndisturbedRun, Undisturbed, benchStep, BenchWorld.goto, twoCallers, Function.update]

theorem empty_lock_taken_over :
    ¬ ∀ (alive : ℤ → Bool) (callers : Bool → BenchCaller),
      (∀ i, pidAlive alive (asI32 (callers i).pid) = true) → ∀ w : BenchWorld Bool, Fresh w →
        ∀ order i j, (benchRun alive callers w order).stage i = .running →
          (benchRun alive callers w order).stage j = .running → i = j := by
  intro h
  have hboth := h (fun _ => true) twoCallers (by decide) { file := none } ⟨by simp, fun _ => rfl⟩
    [false, false, true, true, true, true, true, true, false, false, true, true] false true
    (by decide) (by decide)
  exact absurd hboth (by decide)

end Lss.Analysis.LockRaces
