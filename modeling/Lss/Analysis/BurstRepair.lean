import Lss.Model.ProbeRepair

/-!
# A second run of the burst repair

The repair judges a reading by the median of all of them, and what it takes out moves the
median. A second run finds nothing exactly when the readings that are left are too few to judge,
or none of them is more than their two middle ones together.
-/

set_option autoImplicit false

namespace Lss.Analysis.BurstRepair

open Lss.Model

/-! ## The two middle readings -/

/-- The two middle values of a list together; of an odd list the middle one twice. -/
def middles (values : List ℚ) : ℚ :=
  let v := values.mergeSort fun a b => a ≤ b
  v.getD ((v.length - 1) / 2) 0 + v.getD (v.length / 2) 0

theorem median_eq_middles {values : List ℚ} (h : values ≠ []) :
    median values = middles values / 2 := by
  have finite : values.filter F64.isFinite = values := by
    rw [List.filter_eq_self]
    intro _ _
    rfl
  have order : (F64.totalLe : ℚ → ℚ → Bool) = fun a b => decide (a ≤ b) := rfl
  unfold median middles
  rw [finite, order]
  set v := values.mergeSort fun a b => decide (a ≤ b)
  have length : v.length = values.length := List.length_mergeSort values
  have some_value : 0 < values.length := List.length_pos_iff.mpr h
  have nonempty : v ≠ [] := by
    rw [← List.length_pos_iff]
    omega
  dsimp only
  rw [if_neg nonempty]
  show (if v.length % 2 = 1 then v.getD (v.length / 2) 0
    else (v.getD (v.length / 2 - 1) 0 + v.getD (v.length / 2) 0) / 2) = _
  split
  · rename_i odd
    have same : (v.length - 1) / 2 = v.length / 2 := by omega
    rw [same]
    ring
  · rename_i even
    have before : (v.length - 1) / 2 = v.length / 2 - 1 := by omega
    rw [before]

/-- A value that is not to be taken out from among some: they are too few to judge, or it is no
more than the two middle ones together, where these are above zero. -/
def Stays (values : List ℚ) (v : ℚ) : Prop :=
  values.length < 8 ∨ middles values ≤ 0 ∨ v ≤ middles values

/-- Values of which none is to be taken out. -/
def Plausible (values : List ℚ) : Prop := ∀ v ∈ values, Stays values v

instance (values : List ℚ) (v : ℚ) : Decidable (Stays values v) :=
  inferInstanceAs (Decidable (_ ∨ _))

instance (values : List ℚ) : Decidable (Plausible values) :=
  inferInstanceAs (Decidable (∀ v ∈ values, _))

theorem mem_burstReadings {probes : List ProbeRecord} {r : ℤ × ℚ} :
    r ∈ burstReadings probes ↔
      r ∈ storedReadings probes ∧ ¬Stays ((storedReadings probes).map Prod.snd) r.2 := by
  unfold burstReadings Stays typicalReading
  dsimp only
  rw [List.length_map]
  split
  · rename_i few
    simp [few]
  · rename_i many
    have nonempty : (storedReadings probes).map Prod.snd ≠ [] := by
      intro none_stored
      rw [List.map_eq_nil_iff] at none_stored
      rw [none_stored] at many
      simp at many
    rw [median_eq_middles nonempty, or_iff_right many, List.mem_filter, decide_eq_true_eq, not_or,
      not_le, not_le]
    set m := middles ((storedReadings probes).map Prod.snd)
    have ceiling : m / 2 * burstOverBaseline = m := by
      unfold burstOverBaseline
      ring
    rw [ceiling, div_pos_iff_of_pos_right (by norm_num)]

theorem burstReadings_eq_nil_iff (probes : List ProbeRecord) :
    burstReadings probes = [] ↔ Plausible ((storedReadings probes).map Prod.snd) := by
  rw [List.eq_nil_iff_forall_not_mem]
  simp only [mem_burstReadings, not_and, not_not, Plausible, List.forall_mem_map]

/-! ## The readings that are left -/

/-- The readings the repair leaves: those of a second in which every reading stays. -/
def keptReadings (probes : List ProbeRecord) : List (ℤ × ℚ) :=
  let stored := storedReadings probes
  stored.filter fun r => ∀ s ∈ stored, s.1 = r.1 → Stays (stored.map Prod.snd) s.2

theorem keptReadings_eq (probes : List ProbeRecord) :
    keptReadings probes =
      (storedReadings probes).filter fun r => r.1 ∉ (burstReadings probes).map Prod.fst := by
  apply List.filter_congr
  intro r _
  rw [decide_eq_decide]
  simp only [List.mem_map, mem_burstReadings, not_exists, not_and, and_imp]
  constructor
  · intro stays s stored bad same
    exact bad (stays s stored same)
  · intro good s stored same
    by_contra bad
    exact good s stored bad same

/-- Taking the probes of one second out takes its readings out. -/
theorem storedReadings_markBurst (typical : ℚ) (probes : List ProbeRecord) (bad : ℤ × ℚ) :
    storedReadings (markBurst typical probes bad) =
      (storedReadings probes).filter fun r => r.1 ≠ bad.1 := by
  set mark : ProbeRecord → ProbeRecord := fun p =>
    if p.ts = bad.1 then
      { p with
        valid := false
        invalidReason := some invalidBurst
        detail := burstDetail typical bad.2 }
    else p with hmark
  have same_ts : ∀ p, (mark p).ts = p.ts := by
    intro p
    simp only [hmark]
    split <;> rfl
  have order : inOrder (markBurst typical probes bad) = (inOrder probes).map mark := by
    unfold inOrder markBurst
    symm
    apply List.map_insertionSort
    intro p _ q _
    rw [same_ts, same_ts]
  unfold storedReadings
  rw [order, List.filterMap_map, List.filter_filterMap]
  apply List.filterMap_congr
  intro p _
  simp only [Function.comp_apply, same_ts]
  by_cases here : p.ts = bad.1
  · have gone : (mark p).reading = none := by
      simp [hmark, here, ProbeRecord.reading, ProbeRecord.isReading]
    rw [gone]
    cases p.reading <;> simp [here, Option.filter_some]
  · have kept : mark p = p := by simp [hmark, here]
    rw [kept]
    cases p.reading <;> simp [here, Option.filter_some]

theorem storedReadings_foldl_markBurst (typical : ℚ) (bad : List (ℤ × ℚ))
    (probes : List ProbeRecord) :
    storedReadings (bad.foldl (markBurst typical) probes) =
      (storedReadings probes).filter fun r => r.1 ∉ bad.map Prod.fst := by
  induction bad generalizing probes with
  | nil => simp
  | cons b bad ih =>
      rw [List.foldl_cons, ih, storedReadings_markBurst, List.filter_filter]
      apply List.filter_congr
      intro r _
      simp only [List.map_cons, List.mem_cons, not_or]
      rw [← Bool.decide_and, decide_eq_decide, and_comm]

/-- What the repair leaves of the readings. -/
theorem storedReadings_repair (st : ProbeState) :
    storedReadings st.repairBurstProbes.probes = keptReadings st.probes := by
  unfold ProbeState.repairBurstProbes
  rw [keptReadings_eq]
  dsimp only
  split
  · rename_i nothing
    simp [nothing]
  · exact storedReadings_foldl_markBurst _ _ _

/-- Applying the repair to the table it produced takes no further reading out and changes
nothing exactly when none of the readings it left stands out. -/
theorem repair_settles_iff (st : ProbeState) :
    let repaired := st.repairBurstProbes
    (burstReadings repaired.probes = [] ∧ repaired.repairBurstProbes = repaired) ↔
      Plausible ((keptReadings st.probes).map Prod.snd) := by
  intro repaired
  rw [← storedReadings_repair, ← burstReadings_eq_nil_iff]
  constructor
  · exact And.left
  · intro nothing
    refine ⟨nothing, ?_⟩
    show (if burstReadings repaired.probes = [] then repaired else _) = repaired
    exact if_pos nothing

/-- Readings of ascending speed, one a second. -/
def rising (speeds : List ℚ) : ProbeState where
  probes := speeds.zipIdx.map fun s =>
    { ts := s.2, status := "ok", decodeTokS := some s.1, valid := true }

/-- Six slow readings, two faster ones, and five far above them. -/
def thirteen : ProbeState :=
  rising [100, 100, 100, 100, 100, 100, 150, 290, 1000, 1000, 1000, 1000, 1000]

/-- The two middle values of a list that is in order. -/
theorem middles_of_ordered {values : List ℚ}
    (ordered : values.Pairwise fun a b => decide (a ≤ b) = true) :
    middles values =
      values.getD ((values.length - 1) / 2) 0 + values.getD (values.length / 2) 0 := by
  unfold middles
  rw [List.mergeSort_of_pairwise ordered]

/-- The five are taken out at first; of the eight that are left, 290 is then more than twice the
usual 100. -/
theorem a_second_start_takes_more_out :
    ¬ ∀ st : ProbeState,
      let repaired := st.repairBurstProbes
      burstReadings repaired.probes = [] ∧ repaired.repairBurstProbes = repaired := by
  intro hall
  have stays := (burstReadings_eq_nil_iff _).mp (hall thirteen).1
  rw [storedReadings_repair] at stays
  have typical : middles ((storedReadings thirteen.probes).map Prod.snd) = 300 := by
    rw [middles_of_ordered (by decide +kernel)]
    decide +kernel
  have kept : (keptReadings thirteen.probes).map Prod.snd =
      [100, 100, 100, 100, 100, 100, 150, 290] := by
    simp only [keptReadings, Stays, typical]
    decide +kernel
  have usual : middles [100, 100, 100, 100, 100, 100, 150, 290] = 200 := by
    rw [middles_of_ordered (by decide +kernel)]
    decide +kernel
  rw [kept] at stays
  simp only [Plausible, Stays, usual] at stays
  exact absurd stays (by decide +kernel)

end Lss.Analysis.BurstRepair
