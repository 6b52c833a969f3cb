import Mathlib.Data.List.DropRight
import Mathlib.Data.List.Pairwise
import Mathlib.Tactic.Linarith
import Mathlib.Tactic.NormNum
import Mathlib.Tactic.Ring
import Lss.Library.Buckets
import Lss.Library.Machine
import Lss.Library.Steps
import Lss.Model.Hist

/-!
# The windows of the latencies

What the tracker hands out, with what is still open, adds up to what the histograms grew by
between two scrapes that both published them. A scrape that failed as a whole loses nothing:
the next one is compared with the last good one. A scrape that only lacks a histogram loses
what the histogram grew by until it is published again, because it takes the place of the
scrape before it.
-/

set_option autoImplicit false

namespace Lss.Analysis.LatencyWindows

open Lss.Library Lss.Library.Steps Lss.Model

/-! ## Snapshots that grow -/

/-- The observations of a snapshot that lie in one bucket. -/
def inBucket (s : HistSnapshot) (j : ℕ) : ℚ :=
  if j < s.cum.length then s.cum.getD j 0 - if j = 0 then 0 else s.cum.getD (j - 1) 0 else 0

theorem inBucket_of_lt {s : HistSnapshot} {j : ℕ} (h : j < s.cum.length) :
    inBucket s j = s.cum.getD j 0 - if j = 0 then 0 else s.cum.getD (j - 1) 0 := if_pos h

/-- A later snapshot of a histogram that counts on: the bounds are the same, and no count is
smaller, neither that of everything nor that of a bucket. -/
structure Grows (p c : HistSnapshot) : Prop where
  le_eq : p.le = c.le
  size_eq : p.cum.length = c.cum.length
  count_le : p.count ≤ c.count
  bucket_le : ∀ j, inBucket p j ≤ inBucket c j

/-- What a snapshot has counted up to a bound is at least what an earlier one had, by as much
again at every bound. -/
theorem Grows.cum_sub_mono {p c : HistSnapshot} (h : Grows p c) {j : ℕ}
    (hj : j < c.cum.length) :
    (if j = 0 then 0 else c.cum.getD (j - 1) 0 - p.cum.getD (j - 1) 0) ≤
      c.cum.getD j 0 - p.cum.getD j 0 := by
  have hb := h.bucket_le j
  rw [inBucket_of_lt hj, inBucket_of_lt (by rw [h.size_eq]; exact hj)] at hb
  split
  · next h0 =>
      rw [if_pos h0, if_pos h0] at hb
      linarith
  · next h0 =>
      rw [if_neg h0, if_neg h0] at hb
      linarith

theorem Grows.cum_le {p c : HistSnapshot} (h : Grows p c) {j : ℕ} (hj : j < c.cum.length) :
    p.cum.getD j 0 ≤ c.cum.getD j 0 := by
  induction j with
  | zero =>
      have hstep := h.cum_sub_mono hj
      rw [if_pos rfl] at hstep
      linarith
  | succ j ih =>
      have hbefore := ih (by omega)
      have hstep := h.cum_sub_mono hj
      rw [if_neg (by omega), Nat.add_sub_cancel] at hstep
      linarith

/-- The differences of neighbours in a list, from a first value on. -/
def diffs : ℚ → List ℚ → List ℚ
  | _, [] => []
  | m, x :: xs => (x - m) :: diffs x xs

theorem getD_diffs (m : ℚ) (xs : List ℚ) (j : ℕ) (hj : j < xs.length) :
    (diffs m xs).getD j 0 = xs.getD j 0 - if j = 0 then m else xs.getD (j - 1) 0 := by
  induction xs generalizing m j with
  | nil => exact absurd hj (by simp)
  | cons x xs ih =>
      cases j with
      | zero => rfl
      | succ j =>
          have hj' : j < xs.length := by simpa using hj
          show (diffs x xs).getD j 0 = xs.getD j 0 - if j + 1 = 0 then m else (x :: xs).getD j 0
          rw [ih x j hj', if_neg (Nat.succ_ne_zero j)]
          cases j <;> rfl

theorem length_diffs (m : ℚ) (xs : List ℚ) : (diffs m xs).length = xs.length := by
  induction xs generalizing m with
  | nil => rfl
  | cons x xs ih => simp [diffs, ih]

/-- Counts that grow along the bounds are cut into what lies between them. -/
theorem perBucket_eq_diffs {xs : List ℚ}
    (h : ∀ j < xs.length, (if j = 0 then 0 else xs.getD (j - 1) 0) ≤ xs.getD j 0) :
    perBucket xs = diffs 0 xs := by
  have hgen : ∀ (xs : List ℚ) (acc : List ℚ) (m : ℚ),
      (∀ j < xs.length, (if j = 0 then m else xs.getD (j - 1) 0) ≤ xs.getD j 0) →
      (xs.foldl (fun (acc : List ℚ × ℚ) c => (acc.1 ++ [max (c - acc.2) 0], max acc.2 c))
        (acc, m)).1 = acc ++ diffs m xs := by
    intro xs
    induction xs with
    | nil => intro acc m _; simp [diffs]
    | cons x xs ih =>
        intro acc m hmono
        have hx : m ≤ x := hmono 0 (by simp)
        have hrest : ∀ j < xs.length, (if j = 0 then x else xs.getD (j - 1) 0) ≤ xs.getD j 0 := by
          intro j hj
          have hstep := hmono (j + 1) (by simpa using hj)
          rw [if_neg (by omega), Nat.add_sub_cancel] at hstep
          cases j with
          | zero => exact hstep
          | succ j => exact hstep
        rw [List.foldl_cons, max_eq_left (by linarith : (0 : ℚ) ≤ x - m), max_eq_right hx,
          ih _ _ hrest, List.append_assoc]
        rfl
  have hnil := hgen xs [] 0 h
  rw [List.nil_append] at hnil
  exact hnil

/-- The count of a bucket of an accumulator. -/
def bucketCount (a : HistAccum) (j : ℕ) : ℚ := a.counts.getD j 0

/-- What a histogram grew by, bucket by bucket. -/
theorem Grows.delta {p c : HistSnapshot} (h : Grows p c) :
    (histDelta p c).le = c.le ∧ (histDelta p c).counts.length = c.cum.length ∧
      ∀ j, bucketCount (histDelta p c) j = inBucket c j - inBucket p j := by
  have hreset : (decide (p.le ≠ c.le) || decide (c.count < p.count) ||
      (c.cum.zip p.cum).any (fun q => decide (q.1 < q.2))) = false := by
    rw [Bool.or_eq_false_iff, Bool.or_eq_false_iff]
    refine ⟨⟨by simpa using h.le_eq, by simpa using h.count_le⟩, ?_⟩
    rw [List.any_eq_false]
    intro q hq
    obtain ⟨j, hj, rfl⟩ := List.mem_iff_getElem.1 hq
    rw [List.length_zip] at hj
    have hle := h.cum_le (j := j) (by omega)
    rw [List.getD_eq_getElem?_getD, List.getD_eq_getElem?_getD,
      List.getElem?_eq_getElem (by omega), List.getElem?_eq_getElem (by omega)] at hle
    simpa using hle
  set sub := (c.cum.zip p.cum).map fun q => q.1 - q.2 with hsub
  have hlength : sub.length = c.cum.length := by
    rw [hsub, List.length_map, List.length_zip, h.size_eq, min_self]
  have hget : ∀ j < c.cum.length, sub.getD j 0 = c.cum.getD j 0 - p.cum.getD j 0 := by
    intro j hj
    have hj' : j < p.cum.length := by rw [h.size_eq]; exact hj
    simp [hsub, List.getD_eq_getElem?_getD, hj, hj']
  have hmono : ∀ j < sub.length, (if j = 0 then 0 else sub.getD (j - 1) 0) ≤ sub.getD j 0 := by
    intro j hj
    rw [hlength] at hj
    have hstep := h.cum_sub_mono hj
    rw [hget j hj]
    split
    · next h0 => rwa [if_pos h0] at hstep
    · next h0 =>
        rw [if_neg h0] at hstep
        rw [hget (j - 1) (by omega)]
        exact hstep
  unfold histDelta bucketCount
  dsimp only
  rw [hreset, ← hsub, perBucket_eq_diffs hmono]
  refine ⟨rfl, ?_, ?_⟩
  · simp only [Bool.false_eq_true, if_false]
    rw [length_diffs, hlength]
  · intro j
    simp only [Bool.false_eq_true, if_false]
    unfold inBucket
    rw [h.size_eq]
    by_cases hj : j < c.cum.length
    · rw [getD_diffs 0 sub j (by rw [hlength]; exact hj), if_pos hj, if_pos hj, hget j hj]
      split
      · ring
      · next h0 =>
          rw [hget (j - 1) (by omega)]
          ring
    · rw [if_neg hj, if_neg hj, List.getD_eq_getElem?_getD, List.getElem?_eq_none]
      · simp
      · rw [length_diffs, hlength]
        omega

/-! ## Accumulators -/

/-- Snapshots of one histogram that counts on. -/
def Growing (snaps : List HistSnapshot) : Prop := snaps.Pairwise Grows

theorem Growing.layout {snaps : List HistSnapshot} (h : Growing snaps) {s s' : HistSnapshot}
    (hs : s ∈ snaps) (hs' : s' ∈ snaps) : s.le = s'.le ∧ s.cum.length = s'.cum.length := by
  have hpair : snaps.Pairwise fun a b => a.le = b.le ∧ a.cum.length = b.cum.length :=
    h.imp fun hg => ⟨hg.le_eq, hg.size_eq⟩
  have hsymm : Std.Symm fun a b : HistSnapshot => a.le = b.le ∧ a.cum.length = b.cum.length :=
    ⟨fun a b hab => ⟨hab.1.symm, hab.2.symm⟩⟩
  exact hpair.forall_of_forall (fun _ _ => ⟨rfl, rfl⟩) hs hs'

/-- An accumulator of a histogram: empty, or laid out as its snapshots are. -/
structure Laid (snaps : List HistSnapshot) (a : HistAccum) : Prop where
  nonneg : ∀ v ∈ a.counts, 0 ≤ v
  layout : a = {} ∨ ∃ s ∈ snaps, a.le = s.le ∧ a.counts.length = s.cum.length

theorem laid_empty (snaps : List HistSnapshot) : Laid snaps {} := ⟨by simp, Or.inl rfl⟩

theorem Laid.mono {snaps snaps' : List HistSnapshot} {a : HistAccum} (h : Laid snaps a)
    (hsub : ∀ s ∈ snaps, s ∈ snaps') : Laid snaps' a := by
  refine ⟨h.nonneg, ?_⟩
  rcases h.layout with h | ⟨s, hs, hlayout⟩
  · exact Or.inl h
  · exact Or.inr ⟨s, hsub s hs, hlayout⟩

theorem Laid.count_nonneg {snaps : List HistSnapshot} {a : HistAccum} (h : Laid snaps a) (j : ℕ) :
    0 ≤ bucketCount a j := by
  unfold bucketCount
  rw [List.getD_eq_getElem?_getD]
  cases hj : a.counts[j]? with
  | none => exact le_rfl
  | some v => exact h.nonneg v (List.mem_of_getElem? hj)

/-- An accumulator without observations has none in any bucket. -/
theorem Laid.count_of_isEmpty {snaps : List HistSnapshot} {a : HistAccum} (h : Laid snaps a)
    (hempty : a.isEmpty = true) (j : ℕ) : bucketCount a j = 0 := by
  unfold HistAccum.isEmpty HistAccum.total at hempty
  rw [decide_eq_true_eq] at hempty
  have hsum : (a.counts.map id).sum = 0 := by
    rw [List.map_id]
    exact le_antisymm hempty (List.sum_nonneg h.nonneg)
  have hzero := (sum_eq_zero_iff h.nonneg).1 hsum
  unfold bucketCount
  rw [List.getD_eq_getElem?_getD]
  cases hj : a.counts[j]? with
  | none => rfl
  | some v => exact hzero v (List.mem_of_getElem? hj)

theorem Laid.isEmpty_of_count {snaps : List HistSnapshot} {a : HistAccum} (h : Laid snaps a)
    (hzero : ∀ j, bucketCount a j = 0) : a.isEmpty = true := by
  unfold HistAccum.isEmpty HistAccum.total
  rw [decide_eq_true_eq]
  apply le_of_eq
  have hsum := (sum_eq_zero_iff (f := id) h.nonneg).2
  rw [List.map_id] at hsum
  apply hsum
  intro v hv
  obtain ⟨j, hj, rfl⟩ := List.mem_iff_getElem.1 hv
  have hz := hzero j
  unfold bucketCount at hz
  rw [List.getD_eq_getElem?_getD, List.getElem?_eq_getElem hj] at hz
  exact hz

theorem Grows.laid {snaps : List HistSnapshot} {p c : HistSnapshot} (h : Grows p c)
    (hc : c ∈ snaps) : Laid snaps (histDelta p c) := by
  obtain ⟨hle, hlength, hcount⟩ := h.delta
  refine ⟨?_, Or.inr ⟨c, hc, hle, hlength⟩⟩
  intro v hv
  obtain ⟨j, hj, rfl⟩ := List.mem_iff_getElem.1 hv
  have hj' := hcount j
  unfold bucketCount at hj'
  rw [List.getD_eq_getElem?_getD, List.getElem?_eq_getElem hj, Option.getD_some] at hj'
  rw [hj']
  exact sub_nonneg.2 (h.bucket_le j)

/-- Adding to an accumulator adds bucket by bucket. -/
theorem Laid.add {snaps : List HistSnapshot} (growing : Growing snaps) {a d : HistAccum}
    (ha : Laid snaps a) (hd : Laid snaps d) :
    Laid snaps (a.add d) ∧ ∀ j, bucketCount (a.add d) j = bucketCount a j + bucketCount d j := by
  unfold HistAccum.add
  by_cases hnil : d.counts = []
  · rw [if_pos hnil]
    refine ⟨ha, ?_⟩
    intro j
    unfold bucketCount
    rw [hnil]
    simp
  · rw [if_neg hnil]
    split
    · next hother =>
        refine ⟨hd, ?_⟩
        intro j
        -- only an empty accumulator has another layout
        have hempty : a = {} := by
          rcases ha.layout with h | ⟨s, hs, hle, hlength⟩
          · exact h
          · rcases hd.layout with h | ⟨s', hs', hle', hlength'⟩
            · exact absurd (by rw [h]) hnil
            · obtain ⟨hss, hll⟩ := growing.layout hs hs'
              rcases hother with hne | hne
              · exact absurd (by rw [hle, hle', hss]) hne
              · exact absurd (by rw [hlength, hlength', hll]) hne
        rw [hempty]
        exact (zero_add _).symm
    · next hsame =>
        rw [not_or, not_not, not_not] at hsame
        refine ⟨⟨?_, ?_⟩, ?_⟩
        · intro v hv
          obtain ⟨q, hq, rfl⟩ := List.mem_map.1 hv
          obtain ⟨hfst, hsnd⟩ := List.of_mem_zip (a := q.1) (b := q.2) hq
          exact add_nonneg (ha.nonneg _ hfst) (hd.nonneg _ hsnd)
        · rcases ha.layout with h | ⟨s, hs, hle, hlength⟩
          · have hlen := hsame.2
            rw [h] at hlen
            exact absurd (List.eq_nil_of_length_eq_zero hlen.symm) hnil
          · refine Or.inr ⟨s, hs, hle, ?_⟩
            dsimp only
            rw [List.length_map, List.length_zip, ← hsame.2, min_self, hlength]
        · intro j
          unfold bucketCount
          by_cases hj : j < a.counts.length
          · have hj' : j < d.counts.length := by rw [← hsame.2]; exact hj
            simp [List.getD_eq_getElem?_getD, hj, hj']
          · have hj' : d.counts.length ≤ j := by rw [← hsame.2]; omega
            simp [List.getD_eq_getElem?_getD, hj', not_lt.1 hj]

/-! ## Windows -/

/-- An open window: the accumulators of the histograms since its start. -/
abbrev Slot := Option (ℤ × Vector HistAccum 6)

/-- The count of a bucket in an open window. -/
def openCount (slot : Slot) (i : Fin 6) (j : ℕ) : ℚ :=
  slot.elim 0 fun w => bucketCount (w.2.get i) j

/-- The counts of a bucket in some closed windows. -/
def windowsCount (ws : List ClosedWindow) (i : Fin 6) (j : ℕ) : ℚ :=
  (ws.map fun w => bucketCount (w.accs.get i) j).sum

theorem windowsCount_append (ws ws' : List ClosedWindow) (i : Fin 6) (j : ℕ) :
    windowsCount (ws ++ ws') i j = windowsCount ws i j + windowsCount ws' i j := by
  unfold windowsCount
  rw [List.map_append, List.sum_append]

/-- The accumulators of an open window belong to the histograms. -/
def SlotLaid (snaps : Fin 6 → List HistSnapshot) (slot : Slot) : Prop :=
  ∀ w ∈ slot, ∀ i : Fin 6, Laid (snaps i) (w.2.get i)

@[simp] theorem get_replicate (i : Fin 6) :
    (Vector.replicate 6 ({} : HistAccum)).get i = {} := Vector.getElem_replicate i.isLt

theorem get_mem_toList (accs : Vector HistAccum 6) (i : Fin 6) : accs.get i ∈ accs.toList :=
  Vector.mem_toList_iff.mpr (Vector.getElem_mem i.isLt)

/-- The windows close without losing anything: what is handed out and what is open after that
is what was open before. -/
theorem turn_count {snaps : Fin 6 → List HistSnapshot} {slot : Slot} (h : SlotLaid snaps slot)
    (res start : ℤ) (i : Fin 6) (j : ℕ) :
    windowsCount (LatencyTracker.turn res start slot).2 i j +
      openCount (LatencyTracker.turn res start slot).1 i j = openCount slot i j := by
  unfold LatencyTracker.turn
  cases slot with
  | none => simp [windowsCount, openCount, bucketCount]
  | some w =>
      obtain ⟨t, accs⟩ := w
      dsimp only
      split
      · exact zero_add _
      · split
        · simp [windowsCount, openCount, bucketCount]
        · next hnone =>
            have hempty : (accs.get i).isEmpty = true := by
              by_contra hne
              apply hnone
              rw [List.any_eq_true]
              exact ⟨accs.get i, get_mem_toList accs i, by simpa using hne⟩
            have hzero := (h (t, accs) rfl i).count_of_isEmpty hempty j
            show (0 : ℚ) + bucketCount ((Vector.replicate 6 ({} : HistAccum)).get i) j =
              bucketCount (accs.get i) j
            rw [hzero]
            simp [bucketCount]

theorem turn_laid {snaps : Fin 6 → List HistSnapshot} {slot : Slot} (h : SlotLaid snaps slot)
    (res start : ℤ) : SlotLaid snaps (LatencyTracker.turn res start slot).1 := by
  have hnew : SlotLaid snaps (some (start, Vector.replicate 6 {})) := by
    intro w hw i
    rw [← Option.some.inj hw]
    rw [get_replicate]
    exact laid_empty (snaps i)
  unfold LatencyTracker.turn
  cases slot with
  | none => exact hnew
  | some w =>
      dsimp only
      split
      · exact h
      · exact hnew

theorem res_of_mem_turn {res start : ℤ} {slot : Slot} {w : ClosedWindow}
    (h : w ∈ (LatencyTracker.turn res start slot).2) : w.res = res := by
  unfold LatencyTracker.turn at h
  cases slot with
  | none => exact absurd h (by simp)
  | some old =>
      dsimp only at h
      split at h
      · exact absurd h (by simp)
      · split at h
        · rw [List.mem_singleton.1 h]
        · exact absurd h (by simp)

/-- What a histogram contributes between two scrapes that both published it. -/
def gain (j : ℕ) (p : HistSnapshot × HistSnapshot) : ℚ := inBucket p.2 j - inBucket p.1 j

theorem addScrape_both {prev set : HistSet} (accs : Vector HistAccum 6) {i : Fin 6}
    {p c : HistSnapshot} (hp : prev.get i = some p) (hc : set.get i = some c) :
    (LatencyTracker.addScrape prev set accs).get i =
      if (histDelta p c).isEmpty then accs.get i else (accs.get i).add (histDelta p c) := by
  have hp : prev[(i : ℕ)] = some p := hp
  have hc : set[(i : ℕ)] = some c := hc
  refine (Vector.getElem_ofFn i.isLt).trans ?_
  simp only [Fin.getElem_fin, hp, hc]
  rfl

theorem addScrape_missing {prev set : HistSet} (accs : Vector HistAccum 6) {i : Fin 6}
    (missing : prev.get i = none ∨ set.get i = none) :
    (LatencyTracker.addScrape prev set accs).get i = accs.get i := by
  refine (Vector.getElem_ofFn i.isLt).trans ?_
  simp only [Fin.getElem_fin]
  rcases missing with hp | hc
  · have hp : prev[(i : ℕ)] = none := hp
    simp only [hp]
    rfl
  · have hc : set[(i : ℕ)] = none := hc
    cases prev[(i : ℕ)] with
    | none => rfl
    | some p =>
        simp only [hc]
        rfl

/-- One more scrape adds what every histogram grew by since the one before. -/
theorem addScrape_count {snaps : Fin 6 → List HistSnapshot}
    (growing : ∀ i, Growing (snaps i)) {prev set : HistSet}
    (grows : ∀ (i : Fin 6) p c, prev.get i = some p → set.get i = some c → Grows p c ∧ c ∈ snaps i)
    {accs : Vector HistAccum 6} (h : ∀ i : Fin 6, Laid (snaps i) (accs.get i)) (i : Fin 6) :
    Laid (snaps i) ((LatencyTracker.addScrape prev set accs).get i) ∧
      ∀ j, bucketCount ((LatencyTracker.addScrape prev set accs).get i) j =
        bucketCount (accs.get i) j + ofBoth (gain j) (prev.get i, set.get i) := by
  cases hp : prev.get i with
  | none =>
      rw [addScrape_missing _ (.inl hp)]
      exact ⟨h i, fun j => (add_zero _).symm⟩
  | some p =>
      cases hc : set.get i with
      | none =>
          rw [addScrape_missing _ (.inr hc)]
          exact ⟨h i, fun j => (add_zero _).symm⟩
      | some c =>
          obtain ⟨hgrows, hmem⟩ := grows i p c hp hc
          have hlaid := hgrows.laid hmem
          have hdelta : ∀ j, bucketCount (histDelta p c) j = gain j (p, c) := hgrows.delta.2.2
          rw [addScrape_both _ hp hc]
          by_cases hempty : (histDelta p c).isEmpty = true
          · rw [if_pos hempty]
            refine ⟨h i, ?_⟩
            intro j
            show _ = _ + gain j (p, c)
            rw [← hdelta, hlaid.count_of_isEmpty hempty, add_zero]
          · rw [if_neg hempty]
            obtain ⟨hadd, hcount⟩ := (h i).add (growing i) hlaid
            refine ⟨hadd, ?_⟩
            intro j
            show _ = _ + gain j (p, c)
            rw [hcount, hdelta]

/-! ## Runs -/

/-- A scrape at some time, or none when it failed as a whole. -/
abbrev Scrape := ℤ × Option HistSet

/-- The tracker as a machine that hands windows out. -/
def step (t : LatencyTracker) (o : Scrape) : LatencyTracker × List ClosedWindow := t.observe o.1 o.2

/-- The tracker after some scrapes, and what it handed out. -/
def run (obs : List Scrape) : LatencyTracker × List ClosedWindow := Machine.run step {} obs

/-- What the scrapes that did not fail have of a histogram. -/
def slots (i : Fin 6) (obs : List Scrape) : List (Option HistSnapshot) :=
  (obs.filterMap Prod.snd).map fun set => set.get i

/-- The snapshots of a histogram. -/
def snaps (i : Fin 6) (obs : List Scrape) : List HistSnapshot := (slots i obs).filterMap id

/-- What a histogram grew by between neighbouring scrapes that both have it. -/
def grown (i : Fin 6) (j : ℕ) (obs : List Scrape) : ℚ :=
  ((steps (slots i obs)).map (ofBoth (gain j))).sum

/-- The windows of one length. -/
def ofRes (res : ℤ) (ws : List ClosedWindow) : List ClosedWindow := ws.filter fun w => w.res = res

/-- What the tracker knows after some scrapes. -/
structure Tracked (obs : List Scrape) (t : LatencyTracker) (log : List ClosedWindow) : Prop where
  prev_eq : t.prev = (obs.filterMap Prod.snd).getLast?
  minute_laid : SlotLaid (fun i => snaps i obs) t.minute
  ten_laid : SlotLaid (fun i => snaps i obs) t.ten
  minute_count : ∀ i j, windowsCount (ofRes 60 log) i j + openCount t.minute i j = grown i j obs
  ten_count : ∀ i j, windowsCount (ofRes 600 log) i j + openCount t.ten i j = grown i j obs

theorem tracked_new : Tracked [] {} [] :=
  ⟨rfl, by simp [SlotLaid], by simp [SlotLaid], fun _ _ => by simp [windowsCount, ofRes, openCount,
    grown, slots], fun _ _ => by simp [windowsCount, ofRes, openCount, grown, slots]⟩

theorem ofRes_closed {ms ts : List ClosedWindow} (hms : ∀ w ∈ ms, w.res = 60)
    (hts : ∀ w ∈ ts, w.res = 600) (log : List ClosedWindow) :
    ofRes 60 (log ++ (ms ++ ts)) = ofRes 60 log ++ ms ∧
      ofRes 600 (log ++ (ms ++ ts)) = ofRes 600 log ++ ts := by
  unfold ofRes
  rw [List.filter_append, List.filter_append, List.filter_append, List.filter_append]
  have hm : ms.filter (fun w => decide (w.res = 60)) = ms :=
    List.filter_eq_self.2 fun w hw => decide_eq_true (hms w hw)
  have ht : ts.filter (fun w => decide (w.res = 600)) = ts :=
    List.filter_eq_self.2 fun w hw => decide_eq_true (hts w hw)
  have hm' : ms.filter (fun w => decide (w.res = 600)) = [] := by
    rw [List.filter_eq_nil_iff]
    intro w hw
    simp [hms w hw]
  have ht' : ts.filter (fun w => decide (w.res = 60)) = [] := by
    rw [List.filter_eq_nil_iff]
    intro w hw
    simp [hts w hw]
  rw [hm, ht, hm', ht', List.append_nil, List.nil_append]
  exact ⟨rfl, rfl⟩

theorem turn_eq_some (res start : ℤ) (slot : Slot) :
    ∃ accs, (LatencyTracker.turn res start slot).1 = some (start, accs) := by
  unfold LatencyTracker.turn
  cases slot with
  | none => exact ⟨_, rfl⟩
  | some w =>
      dsimp only
      split
      · next h => exact ⟨w.2, by rw [h]⟩
      · exact ⟨_, rfl⟩

theorem slots_concat (i : Fin 6) (obs : List Scrape) (ts : ℤ) (set : HistSet) :
    slots i (obs ++ [(ts, some set)]) = slots i obs ++ [set.get i] := by
  unfold slots
  rw [List.filterMap_append, List.map_append]
  rfl

theorem slots_concat_none (i : Fin 6) (obs : List Scrape) (ts : ℤ) :
    slots i (obs ++ [(ts, none)]) = slots i obs := by
  unfold slots
  rw [List.filterMap_append]
  simp

/-- The accumulators of an open window after a scrape. -/
def grow (prev : Option HistSet) (set : HistSet) (accs : Vector HistAccum 6) : Vector HistAccum 6 :=
  match prev with
  | none => accs
  | some prev => LatencyTracker.addScrape prev set accs

theorem grow_spec {obs : List Scrape} {ts : ℤ} {set : HistSet}
    (growing : ∀ i, Growing (snaps i (obs ++ [(ts, some set)]))) {accs : Vector HistAccum 6}
    (h : ∀ i : Fin 6, Laid (snaps i obs) (accs.get i)) (i : Fin 6) :
    Laid (snaps i (obs ++ [(ts, some set)]))
        ((grow (obs.filterMap Prod.snd).getLast? set accs).get i) ∧
      ∀ j, bucketCount ((grow (obs.filterMap Prod.snd).getLast? set accs).get i) j + grown i j obs =
        bucketCount (accs.get i) j + grown i j (obs ++ [(ts, some set)]) := by
  have hsnaps : ∀ i, snaps i (obs ++ [(ts, some set)]) = snaps i obs ++ (set.get i).toList := by
    intro i
    unfold snaps
    rw [slots_concat, List.filterMap_append]
    cases set.get i <;> rfl
  have hmono : ∀ i : Fin 6, Laid (snaps i (obs ++ [(ts, some set)])) (accs.get i) := by
    intro i
    apply (h i).mono
    intro s hs
    rw [hsnaps]
    exact List.mem_append_left _ hs
  have hgrown : ∀ j, grown i j (obs ++ [(ts, some set)]) = grown i j obs +
      (((obs.filterMap Prod.snd).getLast?.map fun prev =>
        ofBoth (gain j) (prev.get i, set.get i)).getD 0) := by
    intro j
    unfold grown
    rw [slots_concat, steps_concat, List.map_append, List.sum_append]
    congr 1
    unfold slots
    rw [List.getLast?_map]
    cases (obs.filterMap Prod.snd).getLast? with
    | none => rfl
    | some prev => simp
  unfold grow
  cases hlast : (obs.filterMap Prod.snd).getLast? with
  | none =>
      refine ⟨hmono i, ?_⟩
      intro j
      rw [hgrown, hlast]
      simp
  | some prev =>
      have hgrows : ∀ (i : Fin 6) p c, prev.get i = some p → set.get i = some c →
          Grows p c ∧ c ∈ snaps i (obs ++ [(ts, some set)]) := by
        intro i p c hp hc
        have hmem : p ∈ snaps i obs := by
          unfold snaps slots
          rw [List.mem_filterMap]
          exact ⟨some p, List.mem_map.2 ⟨prev, List.mem_of_getLast? hlast, hp⟩, rfl⟩
        have hpair := growing i
        rw [hsnaps] at hpair ⊢
        exact ⟨(List.pairwise_append.1 hpair).2.2 p hmem c (by simp [hc]), by simp [hc]⟩
      obtain ⟨hlaid, hcount⟩ := addScrape_count growing hgrows hmono i
      refine ⟨hlaid, ?_⟩
      intro j
      dsimp only
      rw [hcount, hgrown, hlast]
      show _ = _ + (grown i j obs + ofBoth (gain j) (prev.get i, set.get i))
      ring

/-- The invariant of a run. -/
theorem Tracked.step {obs : List Scrape} {t : LatencyTracker} {log : List ClosedWindow}
    (h : Tracked obs t log) (o : Scrape) (growing : ∀ i, Growing (snaps i (obs ++ [o]))) :
    Tracked (obs ++ [o]) (step t o).1 (log ++ (step t o).2) := by
  obtain ⟨ts, set⟩ := o
  have hms : ∀ w ∈ (LatencyTracker.turn 60 (ts - ts % 60) t.minute).2, w.res = 60 :=
    fun w hw => res_of_mem_turn hw
  have hts : ∀ w ∈ (LatencyTracker.turn 600 (ts - ts % 600) t.ten).2, w.res = 600 :=
    fun w hw => res_of_mem_turn hw
  obtain ⟨h60, h600⟩ := ofRes_closed hms hts log
  have hminute := turn_count h.minute_laid 60 (ts - ts % 60)
  have hten := turn_count h.ten_laid 600 (ts - ts % 600)
  have hminute_laid := turn_laid h.minute_laid 60 (ts - ts % 60)
  have hten_laid := turn_laid h.ten_laid 600 (ts - ts % 600)
  obtain ⟨maccs, hm⟩ := turn_eq_some 60 (ts - ts % 60) t.minute
  obtain ⟨taccs, ht⟩ := turn_eq_some 600 (ts - ts % 600) t.ten
  have hmc := h.minute_count
  have htc := h.ten_count
  cases set with
  | none =>
      have hobs : (obs ++ [(ts, none)]).filterMap Prod.snd = obs.filterMap Prod.snd := by
        rw [List.filterMap_append]
        simp
      have hsnaps : (fun i => snaps i (obs ++ [(ts, none)])) = fun i => snaps i obs := by
        funext i
        unfold snaps
        rw [slots_concat_none]
      have hgrown : ∀ i j, grown i j (obs ++ [(ts, none)]) = grown i j obs := by
        intro i j
        unfold grown
        rw [slots_concat_none]
      unfold LatencyWindows.step LatencyTracker.observe
      dsimp only
      refine ⟨by rw [hobs]; exact h.prev_eq, by rw [hsnaps]; exact hminute_laid,
        by rw [hsnaps]; exact hten_laid, ?_, ?_⟩
      · intro i j
        rw [h60, windowsCount_append, hgrown, ← hmc, ← hminute, add_assoc]
      · intro i j
        rw [h600, windowsCount_append, hgrown, ← htc, ← hten, add_assoc]
  | some set =>
      have hmlaid : ∀ i : Fin 6, Laid (snaps i obs) (maccs.get i) :=
        fun i => hminute_laid _ (by rw [hm]; rfl) i
      have htlaid : ∀ i : Fin 6, Laid (snaps i obs) (taccs.get i) :=
        fun i => hten_laid _ (by rw [ht]; rfl) i
      have hmg := grow_spec growing hmlaid
      have htg := grow_spec growing htlaid
      rw [← h.prev_eq] at hmg htg
      have hmin : (LatencyWindows.step t (ts, some set)).1.minute =
          some (ts - ts % 60, grow t.prev set maccs) := by
        show (LatencyTracker.turn 60 (ts - ts % 60) t.minute).1.map _ = _
        rw [hm]
        rfl
      have htmin : (LatencyWindows.step t (ts, some set)).1.ten =
          some (ts - ts % 600, grow t.prev set taccs) := by
        show (LatencyTracker.turn 600 (ts - ts % 600) t.ten).1.map _ = _
        rw [ht]
        rfl
      have hlog : (LatencyWindows.step t (ts, some set)).2 =
          (LatencyTracker.turn 60 (ts - ts % 60) t.minute).2 ++
            (LatencyTracker.turn 600 (ts - ts % 600) t.ten).2 := rfl
      rw [hm] at hminute
      rw [ht] at hten
      refine ⟨?_, ?_, ?_, ?_, ?_⟩
      · rw [List.filterMap_append]
        show some set = _
        simp
      · rw [hmin]
        intro w hw i
        rw [← Option.some.inj hw]
        exact (hmg i).1
      · rw [htmin]
        intro w hw i
        rw [← Option.some.inj hw]
        exact (htg i).1
      · intro i j
        have hg := (hmg i).2 j
        have hold := hmc i j
        have hturn := hminute i j
        rw [hlog, h60, windowsCount_append, hmin]
        simp only [openCount, Option.elim_some] at hturn hold ⊢
        linarith
      · intro i j
        have hg := (htg i).2 j
        have hold := htc i j
        have hturn := hten i j
        rw [hlog, h600, windowsCount_append, htmin]
        simp only [openCount, Option.elim_some] at hturn hold ⊢
        linarith

/-! ## The minutes of ten minutes -/

/-- The windows of a minute that were handed out since the last one of ten minutes. -/
def minutesSince (log : List ClosedWindow) : List ClosedWindow :=
  log.rtakeWhile fun w => w.res = 60

theorem minutesSince_append {ms : List ClosedWindow} (h : ∀ w ∈ ms, w.res = 60)
    (log : List ClosedWindow) : minutesSince (log ++ ms) = minutesSince log ++ ms := by
  induction ms using List.reverseRecOn with
  | nil => rw [List.append_nil, List.append_nil]
  | append_singleton ms w ih =>
      have hw : decide (w.res = 60) = true := decide_eq_true (h w (by simp))
      unfold minutesSince at ih ⊢
      rw [← List.append_assoc,
        List.rtakeWhile_concat_pos (fun w : ClosedWindow => decide (w.res = 60)) _ w hw,
        ih fun x hx => h x (by simp [hx]), List.append_assoc]

/-- Something of every window of a log and what was handed out before it. -/
def Every (P : List ClosedWindow → ClosedWindow → Prop) (log : List ClosedWindow) : Prop :=
  ∀ A w B, log = A ++ w :: B → P A w

theorem every_append {P : List ClosedWindow → ClosedWindow → Prop} {log ws : List ClosedWindow}
    (h : Every P log) (hws : ∀ A w B, ws = A ++ w :: B → P (log ++ A) w) : Every P (log ++ ws) := by
  intro A w B heq
  rcases List.append_eq_append_iff.1 heq with ⟨C, rfl, hC⟩ | ⟨C, hlog, hC⟩
  · exact hws C w B hC
  · cases C with
    | nil =>
        rw [List.append_nil] at hlog
        have hA := hws [] w B hC.symm
        rw [List.append_nil, hlog] at hA
        exact hA
    | cons x C =>
        rw [List.cons_append, List.cons.injEq] at hC
        obtain ⟨rfl, -⟩ := hC
        exact h A w C hlog

/-- A window of ten minutes is the sum of the minutes handed out since the one before it, and
these lie in it. -/
def Parts (A : List ClosedWindow) (w : ClosedWindow) : Prop :=
  w.res = 600 →
    (∀ (i : Fin 6) j, windowsCount (minutesSince A) i j = bucketCount (w.accs.get i) j) ∧
    ∀ m ∈ minutesSince A, w.ts ≤ m.ts ∧ m.ts < w.ts + 600

/-- What holds between the open windows and the log. -/
structure Parted (t : LatencyTracker) (log : List ClosedWindow) : Prop where
  open_eq : ∀ i j, windowsCount (minutesSince log) i j + openCount t.minute i j = openCount t.ten i j
  since : ∀ m ∈ minutesSince log, ∃ w ∈ t.ten, Buckets.bucket 600 m.ts = w.1
  minute : ∀ m ∈ t.minute, ∃ w ∈ t.ten, Buckets.bucket 600 m.1 = w.1
  start : ∀ w ∈ t.ten, 600 ∣ w.1
  counted : ∀ m ∈ minutesSince log, (∀ (i : Fin 6) j, 0 ≤ bucketCount (m.accs.get i) j) ∧
    ∃ (i : Fin 6) (j : ℕ), bucketCount (m.accs.get i) j ≠ 0
  parts : Every Parts log

theorem parted_new : Parted {} [] :=
  ⟨fun _ _ => by simp [windowsCount, minutesSince, openCount], by simp [minutesSince], by simp,
    by simp, by simp [minutesSince], by rintro A w B heq; simp at heq⟩

/-- What closing a window can do. -/
theorem turn_cases (res start t : ℤ) (accs : Vector HistAccum 6) :
    (t = start ∧ LatencyTracker.turn res start (some (t, accs)) = (some (t, accs), [])) ∨
      (t ≠ start ∧ ((∀ i : Fin 6, (accs.get i).isEmpty = true) ∧
          LatencyTracker.turn res start (some (t, accs)) =
            (some (start, Vector.replicate 6 {}), []) ∨
        (∃ i : Fin 6, (accs.get i).isEmpty ≠ true) ∧
          LatencyTracker.turn res start (some (t, accs)) =
            (some (start, Vector.replicate 6 {}), [⟨res, t, accs⟩]))) := by
  unfold LatencyTracker.turn
  dsimp only
  by_cases hstart : t = start
  · rw [if_pos hstart]
    exact Or.inl ⟨hstart, rfl⟩
  · rw [if_neg hstart]
    refine Or.inr ⟨hstart, ?_⟩
    by_cases hany : accs.toList.any (fun a => !a.isEmpty) = true
    · rw [if_pos hany]
      rw [List.any_eq_true] at hany
      obtain ⟨a, ha, hne⟩ := hany
      obtain ⟨i, hi, rfl⟩ := List.mem_iff_getElem.1 ha
      have hi' : i < 6 := by simpa using hi
      have here : accs.get ⟨i, hi'⟩ = accs.toList[i] := rfl
      refine Or.inr ⟨⟨⟨i, hi'⟩, ?_⟩, rfl⟩
      rw [here]
      simpa using hne
    · rw [if_neg hany]
      refine Or.inl ⟨?_, rfl⟩
      intro i
      by_contra hne
      apply hany
      rw [List.any_eq_true]
      exact ⟨accs.get i, get_mem_toList accs i, by simpa using hne⟩

theorem openCount_fresh (start : ℤ) (i : Fin 6) (j : ℕ) :
    openCount (some (start, Vector.replicate 6 {})) i j = 0 := by
  simp [openCount, bucketCount]

/-- A window that was handed out has observations. -/
theorem counted_of_turn {snaps : Fin 6 → List HistSnapshot} {slot : Slot}
    (h : SlotLaid snaps slot) {res start : ℤ} {w : ClosedWindow}
    (hw : w ∈ (LatencyTracker.turn res start slot).2) :
    (∃ m ∈ slot, w.ts = m.1) ∧ (∀ (i : Fin 6) j, 0 ≤ bucketCount (w.accs.get i) j) ∧
      ∃ (i : Fin 6) (j : ℕ), bucketCount (w.accs.get i) j ≠ 0 := by
  cases slot with
  | none => exact absurd hw (by simp [LatencyTracker.turn])
  | some old =>
      obtain ⟨t, accs⟩ := old
      rcases turn_cases res start t accs with ⟨-, heq⟩ | ⟨-, ⟨-, heq⟩ | ⟨⟨i, hi⟩, heq⟩⟩
      · exact absurd hw (by simp [heq])
      · exact absurd hw (by simp [heq])
      · rw [heq] at hw
        rw [List.mem_singleton.1 hw]
        have hlaid := h (t, accs) rfl
        refine ⟨⟨(t, accs), rfl, rfl⟩, fun i j => (hlaid i).count_nonneg j, i, ?_⟩
        by_contra hzero
        apply hi
        apply (hlaid i).isEmpty_of_count
        intro j
        by_contra hj
        exact hzero ⟨j, hj⟩

/-- The ten minutes of a time start at those of its minute. -/
theorem bucket_of_minute (ts : ℤ) :
    Buckets.bucket 600 (Buckets.bucket 60 ts) = Buckets.bucket 600 ts := by
  have hdvd : (600 : ℤ) ∣ Buckets.bucket 600 ts := Buckets.bucket_dvd ts
  rw [Buckets.bucket_eq_iff (by omega) hdvd,
    Buckets.le_bucket_iff (by omega) (Dvd.dvd.trans (by decide) hdvd)]
  have hlow := Buckets.bucket_le (show (0 : ℤ) < 600 by omega) ts
  have hhigh := Buckets.lt_bucket_add (show (0 : ℤ) < 600 by omega) ts
  have hminute := Buckets.bucket_le (show (0 : ℤ) < 60 by omega) ts
  omega

/-- The open windows after they were closed for a time. -/
def turned (t : LatencyTracker) (ts : ℤ) : LatencyTracker :=
  { t with
    minute := (LatencyTracker.turn 60 (Buckets.bucket 60 ts) t.minute).1
    ten := (LatencyTracker.turn 600 (Buckets.bucket 600 ts) t.ten).1 }

/-- Closing the windows: the minutes of ten minutes are handed out before them. -/
theorem Parted.turn {snaps : Fin 6 → List HistSnapshot} {t : LatencyTracker}
    {log : List ClosedWindow} (h : Parted t log) (hm : SlotLaid snaps t.minute)
    (ht : SlotLaid snaps t.ten) (ts : ℤ) :
    Parted (turned t ts) (log ++ ((LatencyTracker.turn 60 (Buckets.bucket 60 ts) t.minute).2 ++
      (LatencyTracker.turn 600 (Buckets.bucket 600 ts) t.ten).2)) := by
  set ms := (LatencyTracker.turn 60 (Buckets.bucket 60 ts) t.minute).2 with hms
  have hres : ∀ w ∈ ms, w.res = 60 := fun w hw => res_of_mem_turn hw
  -- the log with the minute that closes
  have hsince : minutesSince (log ++ ms) = minutesSince log ++ ms := minutesSince_append hres log
  have hcount : ∀ i j, windowsCount (minutesSince (log ++ ms)) i j +
      openCount (turned t ts).minute i j = openCount t.ten i j := by
    intro i j
    have hturn := turn_count hm 60 (Buckets.bucket 60 ts) i j
    rw [hsince, windowsCount_append, add_assoc, ← h.open_eq]
    exact congrArg _ hturn
  have hin : ∀ m ∈ minutesSince (log ++ ms), ∃ w ∈ t.ten, Buckets.bucket 600 m.ts = w.1 := by
    intro m hmem
    rw [hsince] at hmem
    rcases List.mem_append.1 hmem with hmem | hmem
    · exact h.since m hmem
    · obtain ⟨⟨old, hold, heq⟩, -⟩ := counted_of_turn hm hmem
      rw [heq]
      exact h.minute old hold
  have hcounted : ∀ m ∈ minutesSince (log ++ ms), (∀ (i : Fin 6) j, 0 ≤ bucketCount (m.accs.get i) j) ∧
      ∃ (i : Fin 6) (j : ℕ), bucketCount (m.accs.get i) j ≠ 0 := by
    intro m hmem
    rw [hsince] at hmem
    rcases List.mem_append.1 hmem with hmem | hmem
    · exact h.counted m hmem
    · exact (counted_of_turn hm hmem).2
  have hparts : Every Parts (log ++ ms) := by
    apply every_append h.parts
    intro A w B heq h600
    have h60 := hres w (by rw [heq]; simp)
    omega
  obtain ⟨maccs, hmin⟩ := turn_eq_some 60 (Buckets.bucket 60 ts) t.minute
  obtain ⟨taccs, hten⟩ := turn_eq_some 600 (Buckets.bucket 600 ts) t.ten
  have hstart : ∀ w ∈ (turned t ts).ten, 600 ∣ w.1 := by
    intro w hw
    unfold turned at hw
    rw [hten] at hw
    rw [← Option.some.inj hw]
    exact Buckets.bucket_dvd ts
  have hminute : ∀ m ∈ (turned t ts).minute, ∃ w ∈ (turned t ts).ten,
      Buckets.bucket 600 m.1 = w.1 := by
    intro m hmem
    unfold turned at hmem ⊢
    rw [hmin] at hmem
    rw [← Option.some.inj hmem]
    exact ⟨_, hten, bucket_of_minute ts⟩
  rw [← List.append_assoc]
  cases hold : t.ten with
  | none =>
      have hnil : minutesSince (log ++ ms) = [] := by
        rw [List.eq_nil_iff_forall_not_mem]
        intro m hmem
        obtain ⟨w, hw, -⟩ := hin m hmem
        rw [hold] at hw
        exact absurd hw (by simp)
      have hempty : (LatencyTracker.turn 600 (Buckets.bucket 600 ts) none).2 = [] := rfl
      rw [hempty, List.append_nil]
      refine ⟨?_, ?_, hminute, hstart, ?_, hparts⟩
      · intro i j
        rw [hcount]
        unfold turned
        rw [hold]
        exact (openCount_fresh _ i j).symm
      · rw [hnil]
        simp
      · exact hcounted
  | some old =>
      obtain ⟨t0, accs⟩ := old
      have hstart0 : (600 : ℤ) ∣ t0 := h.start (t0, accs) hold
      rcases turn_cases 600 (Buckets.bucket 600 ts) t0 accs with ⟨hsame, heq⟩ | ⟨hne, hcases⟩
      · -- the same ten minutes
        rw [heq, List.append_nil]
        have hkeep : (turned t ts).ten = t.ten := by
          unfold turned
          rw [hold, heq]
        refine ⟨?_, ?_, hminute, hstart, hcounted, hparts⟩
        · intro i j
          rw [hcount, hkeep]
        · rw [hkeep]
          exact hin
      · -- the minute closes as well, so its ten minutes are complete
        have hfresh : ∀ i j, openCount (turned t ts).minute i j = 0 := by
          intro i j
          unfold turned
          cases hmo : t.minute with
          | none => exact openCount_fresh _ i j
          | some m =>
              obtain ⟨m0, ma⟩ := m
              have hm0 : m0 ≠ Buckets.bucket 60 ts := by
                rintro rfl
                obtain ⟨w, hw, hbucket⟩ := h.minute _ hmo
                rw [hold, Option.mem_some] at hw
                rw [bucket_of_minute, ← hw] at hbucket
                exact hne hbucket.symm
              rcases turn_cases 60 (Buckets.bucket 60 ts) m0 ma with ⟨hs, -⟩ | ⟨-, ⟨-, he⟩ | ⟨-, he⟩⟩
              · exact absurd hs hm0
              · rw [he]
                exact openCount_fresh _ i j
              · rw [he]
                exact openCount_fresh _ i j
        have hsum : ∀ (i : Fin 6) j, windowsCount (minutesSince (log ++ ms)) i j =
            bucketCount (accs.get i) j := by
          intro i j
          have hc := hcount i j
          rw [hfresh, add_zero, hold] at hc
          exact hc
        have hopen : ∀ i j, openCount (turned t ts).ten i j = 0 := by
          intro i j
          unfold turned
          rw [hold]
          rcases hcases with ⟨-, he⟩ | ⟨-, he⟩
          · rw [he]
            exact openCount_fresh _ i j
          · rw [he]
            exact openCount_fresh _ i j
        have hzero : ∀ log', minutesSince log' = [] → Every Parts log' →
            Parted (turned t ts) log' := by
          intro log' hnil hall
          refine ⟨?_, ?_, hminute, hstart, ?_, hall⟩
          · intro i j
            rw [hnil, hfresh, hopen]
            exact add_zero _
          · rw [hnil]
            simp
          · rw [hnil]
            simp
        rcases hcases with ⟨hempty, he⟩ | ⟨-, he⟩
        · -- nothing was counted in the ten minutes, so no minute of them was handed out
          rw [he, List.append_nil]
          apply hzero _ _ hparts
          rw [List.eq_nil_iff_forall_not_mem]
          intro m hmem
          obtain ⟨-, i, j, hcount'⟩ := hcounted m hmem
          apply hcount'
          have hs := hsum i j
          rw [(ht (t0, accs) hold i).count_of_isEmpty (hempty i) j] at hs
          exact (sum_eq_zero_iff fun x hx => (hcounted x hx).1 i j).1 hs m hmem
        · rw [he]
          apply hzero
          · exact List.rtakeWhile_concat_neg (fun w : ClosedWindow => decide (w.res = 60)) _ _
              (by simp)
          · apply every_append hparts
            intro A w B heq
            have hsplit := List.append_eq_singleton_iff.1 heq.symm
            rcases hsplit with ⟨rfl, hw⟩ | ⟨-, hw⟩
            · rw [List.cons.injEq] at hw
              rw [List.append_nil, hw.1]
              refine fun _ => ⟨hsum, ?_⟩
              intro m hmem
              obtain ⟨x, hx, hbucket⟩ := hin m hmem
              rw [hold, Option.mem_some] at hx
              rw [← hx] at hbucket
              exact (Buckets.bucket_eq_iff (by omega) hstart0 m.ts).1 hbucket
            · exact absurd hw (by simp)

/-- A scrape adds the same to both open windows. -/
theorem Parted.step {obs : List Scrape} {t : LatencyTracker} {log : List ClosedWindow}
    (htracked : Tracked obs t log) (h : Parted t log) (o : Scrape)
    (growing : ∀ i, Growing (snaps i (obs ++ [o]))) :
    Parted (step t o).1 (log ++ (step t o).2) := by
  obtain ⟨ts, set⟩ := o
  have hturn := h.turn htracked.minute_laid htracked.ten_laid ts
  cases set with
  | none => exact ⟨hturn.open_eq, hturn.since, hturn.minute, hturn.start, hturn.counted, hturn.parts⟩
  | some set =>
      obtain ⟨maccs, hm⟩ := turn_eq_some 60 (Buckets.bucket 60 ts) t.minute
      obtain ⟨taccs, ht⟩ := turn_eq_some 600 (Buckets.bucket 600 ts) t.ten
      have hmlaid : ∀ i : Fin 6, Laid (snaps i obs) (maccs.get i) :=
        fun i => turn_laid htracked.minute_laid 60 _ _ (by rw [hm]; rfl) i
      have htlaid : ∀ i : Fin 6, Laid (snaps i obs) (taccs.get i) :=
        fun i => turn_laid htracked.ten_laid 600 _ _ (by rw [ht]; rfl) i
      have hmg := grow_spec growing hmlaid
      have htg := grow_spec growing htlaid
      rw [← htracked.prev_eq] at hmg htg
      have hmin : (LatencyWindows.step t (ts, some set)).1.minute =
          some (Buckets.bucket 60 ts, grow t.prev set maccs) := by
        show (LatencyTracker.turn 60 (Buckets.bucket 60 ts) t.minute).1.map _ = _
        rw [hm]
        rfl
      have hten : (LatencyWindows.step t (ts, some set)).1.ten =
          some (Buckets.bucket 600 ts, grow t.prev set taccs) := by
        show (LatencyTracker.turn 600 (Buckets.bucket 600 ts) t.ten).1.map _ = _
        rw [ht]
        rfl
      have hmin' : (turned t ts).minute = some (Buckets.bucket 60 ts, maccs) := hm
      have hten' : (turned t ts).ten = some (Buckets.bucket 600 ts, taccs) := ht
      have hstarts := hturn.since
      rw [hten'] at hstarts
      refine ⟨?_, ?_, ?_, ?_, hturn.counted, hturn.parts⟩
      · intro i j
        have hopen := hturn.open_eq i j
        have hmg' := (hmg i).2 j
        have htg' := (htg i).2 j
        rw [hmin', hten'] at hopen
        rw [hmin, hten]
        simp only [openCount, Option.elim_some] at hopen ⊢
        have hlog : minutesSince (log ++ (LatencyWindows.step t (ts, some set)).2) =
            minutesSince (log ++ ((LatencyTracker.turn 60 (Buckets.bucket 60 ts) t.minute).2 ++
              (LatencyTracker.turn 600 (Buckets.bucket 600 ts) t.ten).2)) := rfl
        rw [hlog]
        linarith
      · rw [hten]
        intro m hmem
        obtain ⟨w, hw, hbucket⟩ := hstarts m hmem
        rw [Option.mem_some] at hw
        exact ⟨_, rfl, by rw [hbucket, ← hw]⟩
      · rw [hmin, hten]
        intro m hmem
        rw [Option.mem_some] at hmem
        rw [← hmem]
        exact ⟨_, rfl, bucket_of_minute ts⟩
      · rw [hten]
        intro w hw
        rw [Option.mem_some] at hw
        rw [← hw]
        exact Buckets.bucket_dvd ts

theorem snaps_prefix (i : Fin 6) (obs : List Scrape) (o : Scrape) :
    ∃ more, snaps i (obs ++ [o]) = snaps i obs ++ more := by
  unfold snaps slots
  rw [List.filterMap_append, List.map_append, List.filterMap_append]
  exact ⟨_, rfl⟩

/-- What holds after every run of histograms that count on. -/
theorem run_invariant {obs : List Scrape} (growing : ∀ i, Growing (snaps i obs)) :
    Tracked obs (run obs).1 (run obs).2 ∧ Parted (run obs).1 (run obs).2 := by
  induction obs using List.reverseRecOn with
  | nil => exact ⟨tracked_new, parted_new⟩
  | append_singleton obs o ih =>
      have hbefore : ∀ i, Growing (snaps i obs) := by
        intro i
        have hi := growing i
        obtain ⟨more, heq⟩ := snaps_prefix i obs o
        rw [heq] at hi
        exact (List.pairwise_append.1 hi).1
      obtain ⟨htracked, hparted⟩ := ih hbefore
      unfold run at htracked hparted ⊢
      rw [Machine.run_concat]
      exact ⟨htracked.step o growing, hparted.step htracked o growing⟩

/-! ## What is conserved -/

/-- What a bucket of a histogram grew by between its first snapshot and its last one. -/
def lastMinusFirst (i : Fin 6) (j : ℕ) (obs : List Scrape) : ℚ :=
  match (snaps i obs).head?, (snaps i obs).getLast? with
  | some first, some last => inBucket last j - inBucket first j
  | _, _ => 0

/-- The snapshots of a histogram between which there is a scrape that did not fail but lacks
it. -/
def skipped (i : Fin 6) (obs : List Scrape) : List (HistSnapshot × HistSnapshot) :=
  gaps none false (slots i obs)

/-- What is not seen is what the histogram grew by while scrapes lacked it. -/
theorem lastMinusFirst_eq (i : Fin 6) (j : ℕ) (obs : List Scrape) :
    lastMinusFirst i j obs = grown i j obs + ((skipped i obs).map (gain j)).sum := by
  have hsplit := sum_steps_filterMap (gain j) none false (slots i obs)
  have hnone : ((steps (none :: slots i obs)).map (ofBoth (gain j))).sum = grown i j obs := by
    unfold grown
    rw [steps_cons, List.map_append, List.sum_append]
    cases (slots i obs).head? <;> simp [ofBoth]
  rw [if_neg (by simp), hnone, Option.toList_none, List.nil_append] at hsplit
  unfold skipped
  rw [← hsplit]
  show lastMinusFirst i j obs = ((steps (snaps i obs)).map (gain j)).sum
  unfold lastMinusFirst
  cases hsnaps : snaps i obs with
  | nil => rfl
  | cons s rest =>
      have htelescope := sum_steps_sub (fun s => inBucket s j) s rest
      rw [List.head?_cons, List.getLast?_eq_some_getLast (List.cons_ne_nil s rest)]
      exact htelescope.symm

/-- Snapshots of a histogram that counts on are the same when no bucket grew. -/
theorem Grows.cum_eq_iff {p c : HistSnapshot} (h : Grows p c) :
    (∀ j, gain j (p, c) = 0) ↔ p.cum = c.cum := by
  constructor
  · intro hzero
    have hget : ∀ j < c.cum.length, p.cum.getD j 0 = c.cum.getD j 0 := by
      intro j
      induction j with
      | zero =>
          intro hj
          have hbucket : inBucket c 0 = inBucket p 0 := sub_eq_zero.1 (hzero 0)
          rw [inBucket_of_lt hj, inBucket_of_lt (by rw [h.size_eq]; exact hj), if_pos rfl,
            if_pos rfl] at hbucket
          linarith
      | succ j ih =>
          intro hj
          have hbucket : inBucket c (j + 1) = inBucket p (j + 1) := sub_eq_zero.1 (hzero (j + 1))
          rw [inBucket_of_lt hj, inBucket_of_lt (by rw [h.size_eq]; exact hj),
            if_neg (Nat.succ_ne_zero j), if_neg (Nat.succ_ne_zero j), Nat.add_sub_cancel,
            ih (by omega)] at hbucket
          linarith
    apply List.ext_getElem h.size_eq
    intro j hj hj'
    have hj'' := hget j hj'
    rw [List.getD_eq_getElem?_getD, List.getD_eq_getElem?_getD, List.getElem?_eq_getElem hj,
      List.getElem?_eq_getElem hj'] at hj''
    exact hj''
  · intro heq j
    unfold gain inBucket
    rw [heq]
    exact sub_self _

theorem skipped_grows {i : Fin 6} {obs : List Scrape} (growing : Growing (snaps i obs))
    {q : HistSnapshot × HistSnapshot} (h : q ∈ skipped i obs) : Grows q.1 q.2 := by
  apply rel_of_mem_steps growing
  exact mem_gaps h

/-- The tracker conserves the observations: what it handed out in minutes, with the open one,
is what every histogram grew by, and the same in ten minutes, which are the sums of their
minutes. -/
structure Conserved (obs : List Scrape) : Prop where
  minutes : ∀ i j, windowsCount (ofRes 60 (run obs).2) i j + openCount (run obs).1.minute i j =
    lastMinusFirst i j obs
  tens : ∀ i j, windowsCount (ofRes 600 (run obs).2) i j + openCount (run obs).1.ten i j =
    lastMinusFirst i j obs
  parts : Every Parts (run obs).2

/-- For histograms that count on, the tracker conserves the observations exactly when no
histogram grew between two snapshots with a scrape between them that did not fail but lacks
it. -/
theorem conserved_iff (obs : List Scrape) (growing : ∀ i, Growing (snaps i obs)) :
    Conserved obs ↔ ∀ i, ∀ q ∈ skipped i obs, q.1.cum = q.2.cum := by
  obtain ⟨htracked, hparted⟩ := run_invariant growing
  have hzero : ∀ i, (∀ j, ((skipped i obs).map (gain j)).sum = 0) ↔
      ∀ q ∈ skipped i obs, q.1.cum = q.2.cum := by
    intro i
    have hgrows : ∀ q ∈ skipped i obs, Grows q.1 q.2 := fun q hq => skipped_grows (growing i) hq
    have hnonneg : ∀ j, ∀ q ∈ skipped i obs, 0 ≤ gain j q := fun j q hq =>
      sub_nonneg.2 ((hgrows q hq).bucket_le j)
    constructor
    · intro hall q hq
      rw [← (hgrows q hq).cum_eq_iff]
      intro j
      exact (sum_eq_zero_iff (hnonneg j)).1 (hall j) q hq
    · intro hall j
      rw [sum_eq_zero_iff (hnonneg j)]
      intro q hq
      exact (hgrows q hq).cum_eq_iff.2 (hall q hq) j
  constructor
  · intro h i
    rw [← hzero i]
    intro j
    have hminutes := h.minutes i j
    rw [htracked.minute_count, lastMinusFirst_eq] at hminutes
    linarith
  · intro h
    have hall : ∀ i j, lastMinusFirst i j obs = grown i j obs := by
      intro i j
      rw [lastMinusFirst_eq, (hzero i).2 (h i) j, add_zero]
    refine ⟨?_, ?_, hparted.parts⟩
    · intro i j
      rw [htracked.minute_count, hall]
    · intro i j
      rw [htracked.ten_count, hall]

/-- A histogram of one bucket with some observations. -/
def counted (n : ℚ) : HistSnapshot := { cum := [n], count := n }

/-- A scrape that has the first histogram. -/
def having (n : ℚ) : HistSet := #v[some (counted n), none, none, none, none, none]

theorem grows_counted {n m : ℚ} (h : n ≤ m) : Grows (counted n) (counted m) := by
  refine ⟨rfl, rfl, h, ?_⟩
  intro j
  unfold inBucket counted
  cases j with
  | zero => simpa using h
  | succ j => simp

/-- A failed scrape between two good ones. -/
def failedBetween : List Scrape := [(0, some (having 1)), (5, none), (10, some (having 3))]

theorem failed_scrape_loses_nothing : Conserved failedBetween := by
  apply (conserved_iff failedBetween ?_).2
  · decide +kernel
  · have hothers : ∀ i : Fin 6, i ≠ 0 → snaps i failedBetween = [] := by decide +kernel
    intro i
    by_cases hi : i = 0
    · subst hi
      have hsnaps : snaps 0 failedBetween = [counted 1, counted 3] := by decide +kernel
      rw [hsnaps]
      exact List.pairwise_pair.2 (grows_counted (by norm_num))
    · rw [hothers i hi]
      exact List.Pairwise.nil

/-- The engine does not publish the histogram in one scrape. -/
def lackingBetween : List Scrape :=
  [(0, some (having 1)), (5, some (Vector.replicate 6 none)), (10, some (having 3))]

theorem lacking_scrape_loses_growth :
    ¬ ∀ obs, (∀ i, Growing (snaps i obs)) → Conserved obs := by
  intro hall
  have hothers : ∀ i : Fin 6, i ≠ 0 → snaps i lackingBetween = [] := by decide +kernel
  have hgrowing : ∀ i, Growing (snaps i lackingBetween) := by
    intro i
    by_cases hi : i = 0
    · subst hi
      have hsnaps : snaps 0 lackingBetween = [counted 1, counted 3] := by decide +kernel
      rw [hsnaps]
      exact List.pairwise_pair.2 (grows_counted (by norm_num))
    · rw [hothers i hi]
      exact List.Pairwise.nil
  have hminutes := (hall lackingBetween hgrowing).minutes 0 0
  have hseen : windowsCount (ofRes 60 (run lackingBetween).2) 0 0 +
      openCount (run lackingBetween).1.minute 0 0 = 0 := by decide +kernel
  have hgrew : lastMinusFirst 0 0 lackingBetween = 2 := by decide +kernel
  rw [hseen, hgrew] at hminutes
  exact absurd hminutes (by norm_num)

end Lss.Analysis.LatencyWindows
