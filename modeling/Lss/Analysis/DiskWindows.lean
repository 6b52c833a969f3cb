import Mathlib.Data.List.DropRight
import Lss.Analysis.GrowthWindows
import Lss.Library.Fold

/-!
# The drop that the rule about the pace of the disk judges

The window keeps the last reading that is older than itself, and a poll without a reading leaves
it as it is. The drop is therefore the right one as long as none of the readings that should not
be compared shows more free space than those that should.
-/

set_option autoImplicit false

namespace Lss.Analysis.DiskWindows

open Lss.Model Lss.Library Lss.Library.Fold Lss.Library.Window GrowthWindows

/-! ## The biggest drop -/

/-- The biggest drop from some readings to the free space now. -/
def biggestDrop (readings : List (ℤ × ℕ)) (avail : ℕ) : ℕ :=
  (readings.map fun r => r.2 - avail).foldl max 0

/-- One drop is at most another where every reading is matched by one that shows as much space. -/
theorem biggestDrop_le_iff (readings readings' : List (ℤ × ℕ)) (avail : ℕ) :
    biggestDrop readings avail ≤ biggestDrop readings' avail ↔
      ∀ r ∈ readings, r.2 ≤ avail ∨ ∃ s ∈ readings', r.2 ≤ s.2 := by
  unfold biggestDrop
  rw [foldl_max_le, and_iff_right (Nat.zero_le _), List.forall_mem_map]
  apply forall₂_congr
  intro r _
  rw [le_foldl_max]
  constructor
  · rintro (none | ⟨_, hy, le⟩)
    · exact .inl (by omega)
    · obtain ⟨s, hs, rfl⟩ := List.mem_map.mp hy
      by_cases above : r.2 ≤ avail
      · exact .inl above
      · exact .inr ⟨s, hs, by omega⟩
  · rintro (none | ⟨s, hs, le⟩)
    · exact .inl (by omega)
    · exact .inr ⟨_, List.mem_map_of_mem hs, by omega⟩

/-! ## What the window keeps -/

/-- The readings that the window keeps after some. -/
def kept (window : ℤ) (readings : List (ℤ × ℕ)) : List (ℤ × ℕ) :=
  readings.foldl (fun points r => (DiskGrowth.push points r.1 r.2 window).1) []

theorem kept_concat (window : ℤ) {readings : List (ℤ × ℕ)} {r : ℤ × ℕ}
    (sorted : (readings ++ [r]).Pairwise fun r s => r.1 ≤ s.1) :
    kept window (readings ++ [r]) = dropOld r.1 window (readings ++ [r]) := by
  induction readings using List.reverseRecOn generalizing r with
  | nil => rfl
  | append_singleton readings s ih =>
      have sorted' := List.pairwise_append.mp sorted
      have in_order : s.1 ≤ r.1 := sorted'.2.2 s (by simp) r (List.mem_singleton_self _)
      unfold kept at ih ⊢
      rw [List.foldl_concat, ih sorted'.1]
      exact dropOld_dropOld in_order window _ _

/-- A reading that is still compared: every later one is inside the window. -/
def Compared (now window : ℤ) (readings : List (ℤ × ℕ)) (r : ℤ × ℕ) : Prop :=
  ∃ before after, readings = before ++ r :: after ∧ ∀ s ∈ after, now - window < s.1

theorem mem_dropOld (now window : ℤ) {readings : List (ℤ × ℕ)}
    (sorted : readings.Pairwise fun r s => r.1 ≤ s.1) (r : ℤ × ℕ) :
    r ∈ dropOld now window readings ↔ Compared now window readings r := by
  rw [dropOld_eq]
  by_cases empty : readings = []
  · rw [empty]
    refine iff_of_false List.not_mem_nil ?_
    rintro ⟨before, after, split, _⟩
    exact List.append_ne_nil_of_right_ne_nil before (List.cons_ne_nil r after) split.symm
  · obtain ⟨cut, first, rest, begins, same⟩ := exists_beginsWith (Old now window)
      (old_sorted sorted now window) empty
    rw [same]
    constructor
    · intro hr
      obtain ⟨before, after, split⟩ := List.append_of_mem hr
      refine ⟨cut ++ before, after, ?_, ?_⟩
      · rw [begins.split, split, List.append_assoc]
      · intro s hs
        have later : s ∈ rest := by
          cases before with
          | nil =>
              rw [(List.cons.inj split).2]
              exact hs
          | cons b before =>
              rw [(List.cons.inj split).2]
              exact List.mem_append_right _ (List.mem_cons_of_mem _ hs)
        exact not_le.mp (begins.rest_new s later)
    · rintro ⟨before, after, split, new⟩
      rw [begins.split] at split
      rcases List.append_eq_append_iff.mp split with ⟨more, _, rest_eq⟩ | ⟨more, cut_eq, after_eq⟩
      · rw [rest_eq]
        exact List.mem_append_right _ List.mem_cons_self
      · cases more with
        | nil =>
            rw [List.nil_append] at after_eq
            rw [(List.cons.inj after_eq).1]
            exact List.mem_cons_self
        | cons r' more =>
            -- the first reading that is kept would be a later one, and it is old
            have later : first ∈ after := by
              rw [(List.cons.inj after_eq).2]
              exact List.mem_append_right _ List.mem_cons_self
            have cut_ne : cut ≠ [] := by
              rw [cut_eq]
              exact List.append_ne_nil_of_right_ne_nil _ (List.cons_ne_nil _ _)
            have first_old : first.1 ≤ now - window := begins.first_old cut_ne
            exact absurd (new first later) (not_lt.mpr first_old)

/-! ## The rule -/

section Rule

variable {F : Type}

/-- The free space that an observation shows. -/
def availOf (o : Observation F) : Option ℕ := o.disk.map DiskObs.availBytes

theorem counterReadings_sorted (value : Observation F → Option ℕ) {os : List (Observation F)}
    (ordered : os.Pairwise fun o o' => o.now ≤ o'.now) :
    (counterReadings value os).Pairwise fun r s => r.1 ≤ s.1 := by
  apply List.Pairwise.filterMap _ _ ordered
  intro o o' in_order r hr s hs
  obtain ⟨_, _, rfl⟩ := Option.map_eq_some_iff.mp hr
  obtain ⟨_, _, rfl⟩ := Option.map_eq_some_iff.mp hs
  exact in_order

variable [F64 F] (env : Env) (cfg : RulesConfig F)

/-- The drop that an observation with a reading is judged by. -/
def judgedDrop (os : List (Observation F)) (now : ℤ) (avail : ℕ) : ℕ :=
  (DiskGrowth.push (evaluateAll env cfg os).1.diskGrowth.points now avail cfg.diskGrowthSecs).2

/-- The rule holds its condition against this drop. -/
theorem evaluate_diskGrowth (os : List (Observation F)) (o : Observation F) {d : DiskObs}
    (read : o.disk = some d) :
    (evaluateAll env cfg (os ++ [o])).1.diskGrowth.rule =
      ((evaluateAll env cfg os).1.diskGrowth.rule.step o.now
        (F64.le (cfg.diskGrowthGb * F64.lit 1000000000)
          (F64.ofNat (judgedDrop env cfg os o.now d.availBytes) : F))
        cfg.diskSecs cfg.cooldownSecs).1 := by
  unfold evaluateAll
  rw [Machine.run_concat]
  show (evalDisk cfg o _ _ _).1.2.2.rule = _
  unfold evalDisk
  rw [read]
  rfl

/-- The readings inside the window, of those since the last poll that had none. -/
def inWindow (os : List (Observation F)) (now : ℤ) : List (ℤ × ℕ) :=
  (counterReadings availOf (os.rtakeWhile fun o => o.disk.isSome)).filter
    fun r => decide (now - cfg.diskGrowthSecs ≤ r.1)

/-- The engine keeps what the readings of the run leave. -/
theorem diskGrowth_points (os : List (Observation F)) :
    (evaluateAll env cfg os).1.diskGrowth.points =
      kept cfg.diskGrowthSecs (counterReadings availOf os) := by
  induction os using List.reverseRecOn with
  | nil => rfl
  | append_singleton os o ih =>
      unfold evaluateAll at ih ⊢
      rw [Machine.run_concat, counterReadings_concat]
      show (evalDisk cfg o _ _ _).1.2.2.points = _
      unfold evalDisk availOf
      cases o.disk with
      | none =>
          dsimp only [Option.map_none, Option.toList_none]
          rw [List.append_nil]
          exact ih
      | some d =>
          show (DiskGrowth.push _ o.now d.availBytes cfg.diskGrowthSecs).1 =
            kept cfg.diskGrowthSecs (counterReadings availOf os ++ [(o.now, d.availBytes)])
          unfold kept at ih ⊢
          rw [ih, List.foldl_concat]

/-- There is no more free space in a reading than now, or than in one of some others. -/
def Matched (others : ℤ × ℕ → Prop) (avail : ℕ) (r : ℤ × ℕ) : Prop :=
  r.2 ≤ avail ∨ ∃ s, others s ∧ r.2 ≤ s.2

/-- The drop is the right one where every reading that is compared without being one of the
window is matched in the window, and every one of the window that is not compared is matched by
one that is. -/
theorem disk_drop_iff (os : List (Observation F)) (o : Observation F) (d : DiskObs)
    (read : o.disk = some d) (ordered : (os ++ [o]).Pairwise fun o o' => o.now ≤ o'.now) :
    judgedDrop env cfg os o.now d.availBytes =
        biggestDrop (inWindow cfg (os ++ [o]) o.now) d.availBytes ↔
      let compared := Compared o.now cfg.diskGrowthSecs (counterReadings availOf (os ++ [o]))
      let right := fun r => r ∈ inWindow cfg (os ++ [o]) o.now
      (∀ r, compared r → ¬right r → Matched right d.availBytes r) ∧
        ∀ r, right r → ¬compared r → Matched compared d.availBytes r := by
  have sorted := counterReadings_sorted availOf ordered
  have concat : counterReadings availOf (os ++ [o]) =
      counterReadings availOf os ++ [(o.now, d.availBytes)] := by
    rw [counterReadings_concat]
    unfold availOf
    rw [read]
    rfl
  have judged : judgedDrop env cfg os o.now d.availBytes =
      biggestDrop (dropOld o.now cfg.diskGrowthSecs (counterReadings availOf (os ++ [o])))
        d.availBytes := by
    rw [concat] at sorted ⊢
    rw [← kept_concat cfg.diskGrowthSecs sorted]
    unfold judgedDrop kept
    rw [List.foldl_concat, diskGrowth_points]
    rfl
  have matched : ∀ {p q : ℤ × ℕ → Prop}, (∀ r, p r → Matched q d.availBytes r) ↔
      ∀ r, p r → ¬q r → Matched q d.availBytes r := by
    intro p q
    refine forall₂_congr fun r _ => ⟨fun h _ => h, fun h => ?_⟩
    by_cases hq : q r
    · exact .inr ⟨r, hq, le_refl _⟩
    · exact h hq
  rw [judged, le_antisymm_iff, biggestDrop_le_iff, biggestDrop_le_iff]
  dsimp only
  rw [← matched, ← matched]
  simp only [mem_dropOld o.now cfg.diskGrowthSecs sorted, Matched]

end Rule

/-- Times are not shown. -/
def noClock : Env where
  tempUnits := .both
  fmtUtc _ := "-"

/-- A poll of the disk, when it could be read. -/
def diskPoll (now : ℤ) (avail : Option ℕ) : Observation ℚ where
  now := now
  disk := avail.map fun avail => ⟨"/", 1000000000000, avail⟩

/-- The last reading of 700 seconds ago is compared, and shows less space than a later one. -/
theorem steady_disk_drop :
    judgedDrop noClock RulesConfig.default
        [diskPoll 0 (some 4000000000), diskPoll 650 (some 5000000000)] 700 3000000000 =
      biggestDrop [(650, 5000000000), (700, 3000000000)] 3000000000 := by
  have window : inWindow RulesConfig.default [diskPoll 0 (some 4000000000),
      diskPoll 650 (some 5000000000), diskPoll 700 (some 3000000000)] 700 =
        [(650, 5000000000), (700, 3000000000)] := by decide +kernel
  have readings : counterReadings availOf [diskPoll 0 (some 4000000000),
      diskPoll 650 (some 5000000000), diskPoll 700 (some 3000000000)] =
        [(0, 4000000000), (650, 5000000000), (700, 3000000000)] := by decide +kernel
  rw [← window]
  refine (disk_drop_iff noClock RulesConfig.default [diskPoll 0 (some 4000000000),
    diskPoll 650 (some 5000000000)] (diskPoll 700 (some 3000000000)) _ rfl (by decide +kernel)).mpr ?_
  have now : (diskPoll 700 (some 3000000000)).now = 700 := rfl
  dsimp only [List.cons_append, List.nil_append]
  rw [now, window, readings]
  refine ⟨?_, ?_⟩
  · rintro r ⟨before, after, split, _⟩ outside
    have mem : r ∈ [(0, 4000000000), (650, 5000000000), ((700 : ℤ), 3000000000)] := by
      rw [split]
      exact List.mem_append_right _ List.mem_cons_self
    rcases List.mem_cons.mp mem with rfl | inside
    · exact .inr ⟨(650, 5000000000), List.mem_cons_self, by decide⟩
    · exact absurd inside outside
  · intro r inside uncompared
    rcases List.mem_cons.mp inside with rfl | last
    · exact absurd ⟨[(0, 4000000000)], [(700, 3000000000)], rfl, by decide⟩ uncompared
    · rw [List.mem_singleton.mp last]
      exact .inl (le_refl _)

/-- The free space from before a poll without a reading is compared with the one after it. -/
theorem drop_beyond_missed_poll :
    judgedDrop noClock RulesConfig.default
        [diskPoll 0 (some 500000000000), diskPoll 60 none] 120 300000000000 ≠
      biggestDrop (inWindow RulesConfig.default
        [diskPoll 0 (some 500000000000), diskPoll 60 none, diskPoll 120 (some 300000000000)] 120)
        300000000000 := by
  decide +kernel

end Lss.Analysis.DiskWindows
