import Mathlib.Tactic.Linarith
import Mathlib.Tactic.NormNum
import Lss.Model.Compare

/-!
# A comparison from either side

The rows of two loadouts are those of the same two the other way round with their values swapped,
and no difference speaks for both. Both numbers of a row have one source. Two benchmarks are only
compared when both recorded their background load and left a request nearly the same share of the
engine; otherwise no row of a benchmark keeps its difference, and no sentence rests on one.
-/

set_option autoImplicit false

namespace Lss.Analysis.ComparedLoadouts

open Lss.Model Lss.Model.Compare

/-! ## The gap of two background loads -/

theorem engineShare_pos (foreign : ℚ) : 0 < engineShare foreign := by
  unfold engineShare
  have nonneg : 0 ≤ max foreign 0 := le_max_right _ _
  positivity

/-- The shares two runs left a request, within the band. -/
def SharesAlike (na nb : ℚ) : Prop :=
  |engineShare na - engineShare nb| ≤ noiseBand * max (engineShare na) (engineShare nb)

theorem sharesAlike_iff (na nb : ℚ) :
    ¬noiseBand < |engineShare na - engineShare nb| / max (engineShare na) (engineShare nb) ↔
      SharesAlike na nb := by
  have positive : 0 < max (engineShare na) (engineShare nb) :=
    lt_max_of_lt_left (engineShare_pos na)
  rw [not_lt, div_le_iff₀ positive]
  rfl

theorem sharesAlike_comm (na nb : ℚ) : SharesAlike na nb ↔ SharesAlike nb na := by
  unfold SharesAlike
  rw [abs_sub_comm, max_comm]

/-- The other requests beside a run, where they were recorded. -/
def recordedLoad (s : Scorecard) : Option ℚ := s.background.bind BackgroundLoad.concurrentAvg

/-- Two runs that recorded their background load, and shared the engine alike. -/
def Comparable (a b : Scorecard) : Prop :=
  (a.loadClass ≠ .unknown ∧ b.loadClass ≠ .unknown) ∧
    ∃ na nb, recordedLoad a = some na ∧ recordedLoad b = some nb ∧ SharesAlike na nb

theorem Comparable.symm {a b : Scorecard} (h : Comparable a b) : Comparable b a := by
  obtain ⟨⟨recorded, recorded'⟩, na, nb, hna, hnb, alike⟩ := h
  exact ⟨⟨recorded', recorded⟩, nb, na, hnb, hna, (sharesAlike_comm _ _).mp alike⟩

/-- There is no gap exactly between runs that may be compared. -/
theorem loadGap_eq_none_iff (a b : Scorecard) : loadGap a b = none ↔ Comparable a b := by
  unfold loadGap Comparable recordedLoad
  split
  · rename_i unknown
    simp [unknown]
  rename_i recorded
  split
  · rename_i unknown
    simp [unknown]
  rename_i recorded'
  simp only [ne_eq, recorded, recorded', not_false_eq_true, and_self, true_and]
  cases a.background with
  | none => simp
  | some ba =>
      cases b.background with
      | none => simp
      | some bb =>
          simp only [Option.bind_some]
          cases ba.concurrentAvg with
          | none => simp
          | some na =>
              cases bb.concurrentAvg with
              | none => simp
              | some nb =>
                  simp only [Option.some.injEq, exists_eq_left', exists_and_left,
                    ← sharesAlike_iff]
                  split <;> simp_all

theorem loadGap_isSome_comm (a b : Scorecard) : (loadGap a b).isSome = (loadGap b a).isSome := by
  rw [Bool.eq_iff_iff, ← not_iff_not]
  simp only [Option.not_isSome_iff_eq_none, loadGap_eq_none_iff]
  exact ⟨Comparable.symm, Comparable.symm⟩

theorem loadWarning_isSome_comm (a b : LoadoutCard) :
    (loadWarning a b).isSome = (loadWarning b a).isSome := by
  unfold loadWarning
  cases a.speed with
  | none => cases b.speed <;> rfl
  | some sa =>
      cases b.speed with
      | none => rfl
      | some sb => exact loadGap_isSome_comm sa sb

/-! ## One row -/

/-- The same metric the other way round. -/
def swapMetric (m : Metric) : Metric := { m with a := m.b, b := m.a }

theorem paired_swap (a b : Picked) :
    paired b a = ((paired a b).2.1, (paired a b).1, (paired a b).2.2) := by
  obtain ⟨x, lx⟩ := a
  obtain ⟨y, ly⟩ := b
  cases x <;> cases lx <;> cases y <;> cases ly <;> rfl

/-- Where there is a source, both numbers come from it. -/
theorem paired_source (a b : Picked) (h : (paired a b).2.2 ≠ "") :
    (∃ x y, a.bench = some x ∧ b.bench = some y ∧ paired a b = (some x, some y, "bench")) ∨
      (∃ x y, a.live = some x ∧ b.live = some y ∧ paired a b = (some x, some y, "live")) := by
  obtain ⟨x, lx⟩ := a
  obtain ⟨y, ly⟩ := b
  cases x <;> cases lx <;> cases y <;> cases ly <;> simp_all [paired]

/-- What is better or worse differs, and differs in its own direction. -/
theorem judge_direction {x y : ℚ} {higher : Bool} :
    ((judge (some x) (some y) higher).2 = .better → x ≠ y ∧ decide (y < x) = higher) ∧
      ((judge (some x) (some y) higher).2 = .worse → x ≠ y ∧ decide (y < x) ≠ higher) := by
  by_cases zero : y = 0
  · subst zero
    by_cases both : x = 0
    · simp [judge, both]
    · simp only [judge, if_true, both, if_false]
      split <;> simp_all
  · have size : 0 < |y| := abs_pos.mpr zero
    have sign : (0 < (x - y) / |y|) ↔ y < x := by
      rw [div_pos_iff_of_pos_right size, sub_pos]
    have band : (0 : ℚ) ≤ noiseBand := by norm_num [noiseBand, noise]
    have apart : ¬abs ((x - y) / |y|) ≤ noiseBand → x ≠ y := by
      rintro far rfl
      apply far
      simpa using band
    simp only [judge, zero, if_false, sign]
    split
    · simp
    · rename_i far
      split <;> simp_all

/-- No difference is better, or worse, from either side. -/
theorem judge_opposed (a b : Option ℚ) (higher : Bool) :
    ¬((judge a b higher).2 = .better ∧ (judge b a higher).2 = .better) ∧
      ¬((judge a b higher).2 = .worse ∧ (judge b a higher).2 = .worse) := by
  cases a with
  | none => simp [judge]
  | some x =>
      cases b with
      | none => simp [judge]
      | some y =>
          constructor
          · rintro ⟨better, better'⟩
            obtain ⟨apart, direction⟩ := judge_direction.1 better
            obtain ⟨-, direction'⟩ := judge_direction.1 better'
            rw [← direction', decide_eq_decide] at direction
            rcases lt_or_gt_of_ne apart with less | more
            · exact absurd (direction.mpr less) less.not_gt
            · exact absurd (direction.mp more) more.not_gt
          · rintro ⟨worse, worse'⟩
            obtain ⟨apart, direction⟩ := judge_direction.2 worse
            obtain ⟨-, direction'⟩ := judge_direction.2 worse'
            rcases lt_or_gt_of_ne apart with less | more
            · simp only [less, less.not_gt, decide_true, decide_false] at direction direction'
              exact direction' (by simpa using direction)
            · simp only [more, more.not_gt, decide_true, decide_false] at direction direction'
              exact direction (by simpa using direction')

/-! ## All rows -/

theorem topCommonConcurrency_comm (a b : LoadoutCard) :
    topCommonConcurrency a b = topCommonConcurrency b a := by
  unfold topCommonConcurrency
  cases common : ((levels a).filter fun n => n ∈ levels b).max? with
  | none =>
      rw [List.max?_eq_none_iff, List.filter_eq_nil_iff] at common
      symm
      rw [List.max?_eq_none_iff, List.filter_eq_nil_iff]
      intro n hb ha
      simp only [decide_eq_true_eq] at ha common
      exact common n ha hb
  | some n =>
      rw [List.max?_eq_some_iff] at common
      symm
      rw [List.max?_eq_some_iff]
      simp only [List.mem_filter, decide_eq_true_eq] at common ⊢
      exact ⟨common.1.symm, fun m hm => common.2 m hm.symm⟩

theorem datasets_comm (a b : LoadoutCard) : datasets a b = datasets b a := by
  unfold datasets
  congr 1
  rw [List.flatMap_append, List.flatMap_append]
  have perm := (List.perm_insertionSort (· ≤ ·) _).trans
    ((List.perm_append_comm).trans (List.perm_insertionSort (· ≤ ·)
      ((b.accuracy.flatMap fun s => s.accuracy.map Accuracy.dataset) ++
        (a.accuracy.flatMap fun s => s.accuracy.map Accuracy.dataset))).symm)
  exact perm.eq_of_pairwise (fun x y _ _ h h' => le_antisymm h h')
    (List.pairwise_insertionSort _ _) (List.pairwise_insertionSort _ _)

/-- From the other side the same metrics come in the same order. -/
theorem metrics_swap (a b : LoadoutCard) : metrics b a = (metrics a b).map swapMetric := by
  unfold metrics
  rw [topCommonConcurrency_comm b a, datasets_comm b a]
  simp only [List.map_append, List.map_cons, List.map_nil, List.map_map]
  congr 1
  · congr 1
    · congr 1
      · congr 1
        · congr 1
          cases topCommonConcurrency a b <;> rfl
    · split <;> rfl

/-- The row of a metric once a warning withdrew the differences of benchmarks. -/
def shownRow (warned : Bool) (m : Metric) : CompareRow :=
  if warned then withdraw m.row else m.row

theorem rows_compare (selA : String) (a : LoadoutCard) (selB : String) (b : LoadoutCard) :
    (Compare.compare selA a selB b).rows = (metrics a b).map (shownRow (loadWarning a b).isSome) := by
  unfold Compare.compare
  dsimp only
  split
  · rename_i warned
    rw [List.map_map, warned]
    rfl
  · rename_i unwarned
    rw [Bool.not_eq_true] at unwarned
    rw [unwarned]
    rfl

/-- The same row with its values swapped. -/
structure Mirrored (r r' : CompareRow) : Prop where
  category : r'.category = r.category
  label : r'.label = r.label
  unit : r'.unit = r.unit
  source : r'.source = r.source
  higher : r'.higherIsBetter = r.higherIsBetter
  a : r'.a = r.b
  b : r'.b = r.a

/-- Two rows that are not better in both, nor worse in both. -/
def Opposed (r r' : CompareRow) : Prop :=
  ¬(r.mark = .better ∧ r'.mark = .better) ∧ ¬(r.mark = .worse ∧ r'.mark = .worse)

theorem shownRow_fields (warned : Bool) (m : Metric) :
    (shownRow warned m).category = m.category ∧ (shownRow warned m).label = m.label ∧
      (shownRow warned m).unit = m.unit ∧ (shownRow warned m).higherIsBetter = m.higher ∧
        ((shownRow warned m).a, (shownRow warned m).b, (shownRow warned m).source) =
          paired m.a m.b := by
  unfold shownRow withdraw
  split
  · split <;> exact ⟨rfl, rfl, rfl, rfl, rfl⟩
  · exact ⟨rfl, rfl, rfl, rfl, rfl⟩

theorem shownRow_mark (warned : Bool) (m : Metric) :
    (shownRow warned m).mark =
      if (paired m.a m.b).2.2 = "" then .noData
      else if warned = true ∧ (paired m.a m.b).2.2 = "bench" then .incomparable
      else (judge (paired m.a m.b).1 (paired m.a m.b).2.1 m.higher).2 := by
  unfold shownRow withdraw Metric.row
  dsimp only
  cases warned with
  | false => simp only [Bool.false_eq_true, if_false, false_and]; split <;> rfl
  | true =>
      simp only [if_true, true_and]
      by_cases none_found : (paired m.a m.b).2.2 = ""
      · simp [none_found]
      · simp only [none_found, if_false]
        split <;> rfl

theorem shownRow_swap (warned : Bool) (m : Metric) :
    Mirrored (shownRow warned m) (shownRow warned (swapMetric m)) ∧
      Opposed (shownRow warned m) (shownRow warned (swapMetric m)) := by
  obtain ⟨category, label, unit, higher, values⟩ := shownRow_fields warned m
  obtain ⟨category', label', unit', higher', values'⟩ := shownRow_fields warned (swapMetric m)
  have swapped : paired (swapMetric m).a (swapMetric m).b = _ := paired_swap m.a m.b
  rw [swapped, ← values] at values'
  simp only [Prod.mk.injEq] at values'
  obtain ⟨va, vb, source⟩ := values'
  refine ⟨⟨category'.trans category.symm, label'.trans label.symm, unit'.trans unit.symm, source,
    higher'.trans higher.symm, va, vb⟩, ?_⟩
  unfold Opposed
  rw [shownRow_mark, shownRow_mark, swapped]
  dsimp only
  split
  · simp
  · split
    · simp
    · exact judge_opposed _ _ _

/-! ## Verdicts -/

/-- The rows a judgement names as won or lost. -/
def named : Judgement → List CompareRow
  | .withdrawn | .unmeasured | .same => []
  | .better r | .worse r => [r]
  | .mixed wins losses => wins ++ losses

theorem biggest_getD_mem {rows : List CompareRow} {mark : Mark} {lead : CompareRow}
    (some_row : rows.filter (fun r => r.mark = mark) ≠ []) :
    (biggest rows mark).getD lead ∈ rows.filter fun r => r.mark = mark := by
  -- the fold holds one of the rows it went over, as soon as there is one
  have held : ∀ before : List CompareRow, ∀ out : Option CompareRow,
      (before.foldl (fun best r =>
        if best.all fun b => |b.deltaPct.getD 0| < |r.deltaPct.getD 0| then some r else best)
          out = out ∧ (before = [] ∨ out.isSome)) ∨
        ∃ r ∈ before, before.foldl (fun best r =>
          if best.all fun b => |b.deltaPct.getD 0| < |r.deltaPct.getD 0| then some r else best)
            out = some r := by
    intro before
    induction before with
    | nil => intro out; exact Or.inl ⟨rfl, Or.inl rfl⟩
    | cons r before ih =>
        intro out
        rw [List.foldl_cons]
        by_cases bigger : (out.all fun b => |b.deltaPct.getD 0| < |r.deltaPct.getD 0|) = true
        · rw [if_pos bigger]
          rcases ih (some r) with ⟨same, -⟩ | ⟨s, hs, found⟩
          · exact Or.inr ⟨r, by simp, same⟩
          · exact Or.inr ⟨s, List.mem_cons_of_mem _ hs, found⟩
        · rw [if_neg bigger]
          have some_out : out.isSome := by
            cases out with
            | none => exact absurd rfl bigger
            | some b => rfl
          rcases ih out with ⟨same, -⟩ | ⟨s, hs, found⟩
          · exact Or.inl ⟨same, Or.inr some_out⟩
          · exact Or.inr ⟨s, List.mem_cons_of_mem _ hs, found⟩
  unfold biggest
  rcases held (rows.filter fun r => r.mark = mark) none with ⟨-, empty | absent⟩ | ⟨r, hr, found⟩
  · exact absurd empty some_row
  · cases absent
  · rw [found]
    exact hr

/-- A judgement names rows that are better or worse. -/
theorem named_judgement {category : String} {rows : List CompareRow} {warning : Option String} :
    ∀ r ∈ named (judgement category rows warning),
      r ∈ rows ∧ (r.mark = .better ∨ r.mark = .worse) := by
  intro r hr
  have of_paired : ∀ mark : Mark, r ∈ ((rows.filter fun r => r.category = category).filter fun r =>
      ¬(r.mark = .noData ∨ r.mark = .incomparable)).filter (fun r => r.mark = mark) →
        r ∈ rows ∧ r.mark = mark := by
    intro mark mem
    simp only [List.mem_filter, decide_eq_true_eq] at mem
    exact ⟨mem.1.1.1, mem.2⟩
  unfold judgement at hr
  dsimp only at hr
  split at hr
  · cases hr
  split at hr
  · cases hr
  split at hr
  · cases hr
  rename_i not_same
  split at hr
  · rename_i no_loss
    rw [named, List.mem_singleton] at hr
    have some_win := fun no_win => not_same ⟨no_win, no_loss⟩
    have won := of_paired .better (hr ▸ biggest_getD_mem some_win)
    exact ⟨won.1, Or.inl won.2⟩
  rename_i some_loss
  split at hr
  · rw [named, List.mem_singleton] at hr
    have lost := of_paired .worse (hr ▸ biggest_getD_mem some_loss)
    exact ⟨lost.1, Or.inr lost.2⟩
  · rw [named, List.mem_append] at hr
    rcases hr with hr | hr
    · exact ⟨(of_paired .better hr).1, Or.inl (of_paired .better hr).2⟩
    · exact ⟨(of_paired .worse hr).1, Or.inr (of_paired .worse hr).2⟩

/-! ## The comparison -/

/-- Whether a row is judged: both sides have the measurement, and it may be compared. -/
def Judged (r : CompareRow) : Prop := r.mark = .same ∨ r.mark = .better ∨ r.mark = .worse

/-- Both values of a row are a metric's numbers of one source. -/
def OneSource (a b : LoadoutCard) (r : CompareRow) : Prop :=
  ∃ m ∈ metrics a b, (r.category, r.label, r.unit) = (m.category, m.label, m.unit) ∧
    ∃ x y, r.a = some x ∧ r.b = some y ∧
      ((r.source = "bench" ∧ m.a.bench = some x ∧ m.b.bench = some y) ∨
        (r.source = "live" ∧ m.a.live = some x ∧ m.b.live = some y))

/-- No winner is named on account of the rows of a benchmark: those keep no difference and no
mark of one, and each verdict is the sentence of a judgement that names live rows only. -/
def Withdrawn (c : Comparison) : Prop :=
  (∀ r ∈ c.rows, r.source = "bench" →
    r.deltaPct = none ∧ r.mark ≠ .better ∧ r.mark ≠ .worse) ∧
  ∀ v ∈ c.verdicts, ∃ j : Judgement, v.sentence = j.sentence v.category c.a.selector c.b.selector ∧
    ∀ r ∈ named j, r ∈ c.rows ∧ r.source = "live"

theorem oneSource_of_judged {selA selB : String} {a b : LoadoutCard} {r : CompareRow}
    (hr : r ∈ (Compare.compare selA a selB b).rows) (judged : Judged r) : OneSource a b r := by
  rw [rows_compare, List.mem_map] at hr
  obtain ⟨m, hm, rfl⟩ := hr
  obtain ⟨category, label, unit, -, values⟩ := shownRow_fields (loadWarning a b).isSome m
  have some_source : (paired m.a m.b).2.2 ≠ "" := by
    intro none_found
    have mark := shownRow_mark (loadWarning a b).isSome m
    rw [if_pos none_found] at mark
    unfold Judged at judged
    rw [mark] at judged
    simp at judged
  refine ⟨m, hm, by rw [category, label, unit], ?_⟩
  rcases paired_source m.a m.b some_source with ⟨x, y, hx, hy, pair⟩ | ⟨x, y, hx, hy, pair⟩
  · rw [pair] at values
    simp only [Prod.mk.injEq] at values
    exact ⟨x, y, values.1, values.2.1, Or.inl ⟨values.2.2, hx, hy⟩⟩
  · rw [pair] at values
    simp only [Prod.mk.injEq] at values
    exact ⟨x, y, values.1, values.2.1, Or.inr ⟨values.2.2, hx, hy⟩⟩

theorem withdrawn_of_warning {selA selB : String} {a b : LoadoutCard}
    (warned : (loadWarning a b).isSome = true) : Withdrawn (Compare.compare selA a selB b) := by
  have no_bench : ∀ r ∈ (Compare.compare selA a selB b).rows, r.source = "bench" →
      r.deltaPct = none ∧ r.mark = .incomparable := by
    intro r hr bench
    rw [rows_compare, List.mem_map, warned] at hr
    obtain ⟨m, -, rfl⟩ := hr
    have source : m.row.source = "bench" := by
      obtain ⟨-, -, -, -, values⟩ := shownRow_fields true m
      simp only [Prod.ext_iff] at values
      exact values.2.2.symm.trans bench
    simp only [shownRow, if_true, withdraw, source, and_self]
  constructor
  · intro r hr bench
    obtain ⟨no_delta, mark⟩ := no_bench r hr bench
    exact ⟨no_delta, by simp [mark], by simp [mark]⟩
  · intro v hv
    obtain ⟨c, -, rfl⟩ := List.mem_map.mp hv
    refine ⟨_, rfl, ?_⟩
    intro r hr
    obtain ⟨mem, mark⟩ : r ∈ (Compare.compare selA a selB b).rows ∧ _ := named_judgement r hr
    refine ⟨mem, ?_⟩
    obtain ⟨_, -, -, _, _, -, -, ⟨bench, -⟩ | ⟨live, -⟩⟩ := oneSource_of_judged mem (Or.inr mark)
    · have gone := (no_bench r mem bench).2
      rw [gone] at mark
      simp at mark
    · exact live

/-- Two loadouts compare the same from either side, and never across different traffic. -/
theorem compared_alike (selA selB : String) (a b : LoadoutCard) :
    (∀ sa sb, (loadGap sa sb).isSome = (loadGap sb sa).isSome ∧
      (loadGap sa sb = none → Comparable sa sb)) ∧
    List.Forall₂ (fun r r' => Mirrored r r' ∧ Opposed r r')
      (Compare.compare selA a selB b).rows (Compare.compare selB b selA a).rows ∧
    (∀ r ∈ (Compare.compare selA a selB b).rows, Judged r → OneSource a b r) ∧
    ((Compare.compare selA a selB b).loadWarning.isSome →
      Withdrawn (Compare.compare selA a selB b)) := by
  refine ⟨?_, ?_, ?_, ?_⟩
  · intro sa sb
    exact ⟨loadGap_isSome_comm sa sb, (loadGap_eq_none_iff sa sb).mp⟩
  · rw [rows_compare, rows_compare, metrics_swap a b, List.map_map, ← loadWarning_isSome_comm a b,
      List.forall₂_map_left_iff, List.forall₂_map_right_iff, List.forall₂_same]
    exact fun m _ => shownRow_swap _ m
  · exact fun r hr => oneSource_of_judged hr
  · exact withdrawn_of_warning

end Lss.Analysis.ComparedLoadouts
