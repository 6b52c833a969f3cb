import Lss.Library.Distribution
import Lss.Model.Hist

/-!
# Quantiles and shares of a histogram

A histogram is a distribution in buckets: the first one begins at zero, or at its bound where this
is negative, and each other one where the bucket before it ends. The quantiles are the values of
its ranks, and the shares count what is at or below a value.
-/

set_option autoImplicit false

namespace Lss.Analysis.Quantiles

open Lss.Model Lss.Library.Distribution

/-- The shape a histogram is read with. -/
structure Shaped (h : HistAccum) : Prop where
  ascending : h.le.Pairwise (· < ·)
  counted : ∀ c ∈ h.counts, 0 ≤ c
  length : h.counts.length = h.le.length + 1

/-! ## The buckets -/

/-- The buckets up to some bounds, the first one from `lo` on. -/
def bucketsFrom (lo : ℚ) : List ℚ → List ℚ → List (Bucket ℚ)
  | upper :: le, c :: counts => ⟨lo, upper, c⟩ :: bucketsFrom upper le counts
  | _, _ => []

/-- Where the first bucket begins. -/
def firstLower (le : List ℚ) : ℚ := min 0 (le.headD 0)

/-- The buckets of a histogram below the one without a bound. -/
def buckets (h : HistAccum) : List (Bucket ℚ) := bucketsFrom (firstLower h.le) h.le h.counts

theorem ascending_bucketsFrom {top : ℚ} {le : List ℚ} (ascending : le.Pairwise (· < ·))
    {lo : ℚ} (order : ∀ upper ∈ le.head?, lo ≤ upper) (last : (lo :: le).getLast? = some top)
    {counts : List ℚ} (counted : ∀ c ∈ counts, 0 ≤ c) :
    Ascending top lo (bucketsFrom lo le counts) := by
  induction le generalizing lo counts with
  | nil => exact .nil (Option.some.inj last).le
  | cons upper le ih =>
      obtain ⟨above, ascending'⟩ := List.pairwise_cons.mp ascending
      have order' : ∀ next ∈ le.head?, upper ≤ next :=
        fun next hnext => (above next (List.mem_of_mem_head? hnext)).le
      have last' : (upper :: le).getLast? = some top := last
      cases counts with
      | nil =>
          have none : ∀ c ∈ ([] : List ℚ), 0 ≤ c := nofun
          have rest := ih ascending' order' last' none
          exact .nil ((order upper rfl).trans rest.le_top)
      | cons c counts =>
          obtain ⟨positive, counted'⟩ := List.forall_mem_cons.mp counted
          exact .cons (b := ⟨lo, upper, c⟩) (order upper rfl) positive
            (ih ascending' order' last' counted')

theorem firstLower_le {le : List ℚ} : ∀ upper ∈ le.head?, firstLower le ≤ upper := by
  intro upper head
  cases le with
  | nil => cases head
  | cons u le =>
      obtain rfl := Option.some.inj head
      exact min_le_right _ _

theorem Shaped.ascending_buckets {h : HistAccum} (shaped : Shaped h) {top : ℚ}
    (last : h.le.getLast? = some top) : Ascending top (firstLower h.le) (buckets h) := by
  apply ascending_bucketsFrom shaped.ascending firstLower_le _ shaped.counted
  rw [List.getLast?_cons, last]
  rfl

/-- The counts of the buckets that have a bound. -/
theorem map_count_bucketsFrom (lo : ℚ) (le counts : List ℚ) :
    (bucketsFrom lo le counts).map Bucket.count = counts.take le.length := by
  induction le generalizing lo counts with
  | nil => rfl
  | cons upper le ih =>
      cases counts with
      | nil => rfl
      | cons c counts => exact congrArg (c :: ·) (ih upper counts)

/-! ## The walks over them -/

/-- Where the source takes a bucket to begin. -/
def lowerAt (le : List ℚ) (i : ℕ) (upper : ℚ) : ℚ :=
  if i = 0 then min 0 upper else le.getD (i - 1) 0

/-- The bounds from some index on, and where the bucket of the index begins. -/
structure At (le : List ℚ) (i : ℕ) (lo : ℚ) (rest : List ℚ) : Prop where
  drop : le.drop i = rest
  lower : ∀ upper ∈ rest.head?, lowerAt le i upper = lo

theorem at_first (le : List ℚ) : At le 0 (firstLower le) le := by
  refine ⟨rfl, fun upper head => ?_⟩
  cases le with
  | nil => cases head
  | cons u le =>
      obtain rfl := Option.some.inj head
      rfl

section At

variable {le rest : List ℚ} {i : ℕ} {lo upper : ℚ}

theorem At.getElem? (h : At le i lo (upper :: rest)) : le[i]? = some upper := by
  rw [← List.head?_drop, h.drop]
  rfl

theorem At.next (h : At le i lo (upper :: rest)) : At le (i + 1) upper rest := by
  refine ⟨?_, fun next _ => ?_⟩
  · rw [← List.tail_drop, h.drop]
    rfl
  · show le.getD i 0 = upper
    rw [List.getD_eq_getElem?_getD, h.getElem?]
    rfl

theorem At.past (h : At le i lo []) : le[i]? = none := by
  rw [← List.head?_drop, h.drop]
  rfl

theorem quantileFrom_eq {top : ℚ} (last : le.getLast? = some top) (h : At le i lo rest)
    {counts : List ℚ} (counted : ∀ c ∈ counts, 0 ≤ c) (length : counts.length = rest.length + 1)
    (rank seen : ℚ) : HistAccum.quantileFrom le rank i seen counts =
      some (valueAt top rank seen (bucketsFrom lo rest counts)) := by
  induction rest generalizing i lo counts seen with
  | nil =>
      obtain ⟨c, rfl⟩ := List.length_eq_one_iff.mp length
      unfold HistAccum.quantileFrom
      rw [h.past]
      unfold HistAccum.quantileFrom
      dsimp only
      rw [last, ite_self, ite_self]
      rfl
  | cons upper rest ih =>
      cases counts with
      | nil => cases length
      | cons c counts =>
          obtain ⟨positive, counted'⟩ := List.forall_mem_cons.mp counted
          have later := ih h.next counted' (Nat.succ.inj length)
          unfold HistAccum.quantileFrom bucketsFrom valueAt
          by_cases empty : c ≤ 0
          · rw [if_pos empty, if_neg fun found => not_lt.mpr empty found.1, later]
            dsimp only
            rw [le_antisymm empty positive, add_zero]
          · rw [if_neg empty]
            by_cases found : rank ≤ seen + c
            · rw [if_pos found, if_pos ⟨not_le.mp empty, found⟩, h.getElem?]
              have lower := h.lower upper rfl
              unfold lowerAt at lower
              dsimp only
              rw [lower]
              rfl
            · rw [if_neg found, if_neg fun h => found h.2, later]

theorem fractionFrom_eq {top : ℚ} (h : At le i lo rest) {counts : List ℚ}
    (ascending : Ascending top lo (bucketsFrom lo rest counts))
    (length : counts.length = rest.length + 1) (x seen : ℚ) :
    HistAccum.fractionFrom le x i seen counts =
      seen + countBelow (bucketsFrom lo rest counts) x := by
  induction rest generalizing i lo counts seen with
  | nil =>
      obtain ⟨c, rfl⟩ := List.length_eq_one_iff.mp length
      unfold HistAccum.fractionFrom
      rw [h.past]
      exact (add_zero seen).symm
  | cons upper rest ih =>
      cases counts with
      | nil => cases length
      | cons c counts =>
          have lower := h.lower upper rfl
          unfold lowerAt at lower
          have after := ascending.rest
          unfold HistAccum.fractionFrom bucketsFrom
          rw [h.getElem?, countBelow_cons]
          dsimp only
          rw [lower]
          by_cases full : upper ≤ x
          · rw [if_pos full, ih h.next after (Nat.succ.inj length), Bucket.share_of_hi_le full,
              mul_one, add_assoc]
          · rw [if_neg full, after.countBelow_of_lt (not_le.mp full), add_zero]
            unfold Bucket.share
            rw [if_neg full]
            dsimp only
            split
            · rename_i inside
              have width : 0 < upper - lo := by linarith [not_le.mp full]
              have part := clamp_of_mem (div_nonneg (sub_nonneg.mpr inside.le) width.le)
                ((div_le_one width).mpr (by linarith [not_le.mp full]))
              unfold clamp at part
              rw [part]
            · rw [mul_zero, add_zero]

end At

/-! ## The histogram -/

section Histogram

variable {h : HistAccum}

theorem Shaped.quantile_eq (shaped : Shaped h) (positive : 0 < h.total) {top : ℚ}
    (last : h.le.getLast? = some top) (q : ℚ) :
    h.quantile q = some (valueAt top (clamp q * h.total) 0 (buckets h)) := by
  have bounded : h.le ≠ [] := by
    intro none
    rw [none] at last
    cases last
  unfold HistAccum.quantile
  rw [if_neg (not_or.mpr ⟨not_le.mpr positive, bounded⟩)]
  exact quantileFrom_eq last (at_first h.le) shaped.counted shaped.length _ 0

theorem Shaped.fractionLe_eq (shaped : Shaped h) (positive : 0 < h.total) {top : ℚ}
    (last : h.le.getLast? = some top) (x : ℚ) :
    h.fractionLe x = some (clamp (countBelow (buckets h) x / h.total)) := by
  have bounded : h.le ≠ [] := by
    intro none
    rw [none] at last
    cases last
  unfold HistAccum.fractionLe
  rw [if_neg (not_or.mpr ⟨not_le.mpr positive, bounded⟩),
    fractionFrom_eq (at_first h.le) (shaped.ascending_buckets last) shaped.length, zero_add]
  rfl

/-- The rank of a quantile is in a bucket that has a bound. -/
def RankBounded (h : HistAccum) (q : ℚ) : Prop :=
  clamp q * h.total ≤ (h.counts.take h.le.length).sum

/-- What the two readings of a histogram with some bound have to do with each other. -/
structure Consistent (h : HistAccum) (first last : ℚ) : Prop where
  quantile : ∀ q, ∃ v, h.quantile q = some v ∧ min 0 first ≤ v ∧ v ≤ last
  quantile_mono : ∀ q q' v v', q ≤ q' → h.quantile q = some v → h.quantile q' = some v' → v ≤ v'
  fraction : ∀ x, ∃ share, h.fractionLe x = some share ∧ 0 ≤ share ∧ share ≤ 1
  fraction_mono : ∀ x x' share share', x ≤ x' → h.fractionLe x = some share →
    h.fractionLe x' = some share' → share ≤ share'
  reached : ∀ q v share, RankBounded h q → h.quantile q = some v →
    h.fractionLe v = some share → min q 1 ≤ share

/-- Quantiles rise and stay between the first and the last bound, shares rise and stay between
nothing and everything, and at least the share asked for is at or below a quantile. -/
theorem quantile_share_consistent (shaped : Shaped h) (positive : 0 < h.total) {first last : ℚ}
    (hfirst : h.le.head? = some first) (hlast : h.le.getLast? = some last) :
    Consistent h first last := by
  have ascending := shaped.ascending_buckets hlast
  have lower : firstLower h.le = min 0 first := by
    unfold firstLower
    rw [List.headD_eq_head?_getD, hfirst]
    rfl
  constructor
  · intro q
    rw [shaped.quantile_eq positive hlast]
    exact ⟨_, rfl, lower ▸ ascending.valueAt_mem _ 0⟩
  · intro q q' v v' le hv hv'
    rw [shaped.quantile_eq positive hlast] at hv hv'
    rw [← Option.some.inj hv, ← Option.some.inj hv']
    exact ascending.valueAt_mono (mul_le_mul_of_nonneg_right (clamp_mono le) positive.le) 0
  · intro x
    rw [shaped.fractionLe_eq positive hlast]
    exact ⟨_, rfl, clamp_nonneg _, clamp_le_one _⟩
  · intro x x' share share' le hs hs'
    rw [shaped.fractionLe_eq positive hlast] at hs hs'
    rw [← Option.some.inj hs, ← Option.some.inj hs']
    exact clamp_mono (div_le_div_of_nonneg_right (ascending.countBelow_mono le) positive.le)
  · intro q v share bounded hv hs
    rw [shaped.quantile_eq positive hlast] at hv
    rw [shaped.fractionLe_eq positive hlast] at hs
    rw [← Option.some.inj hs, ← Option.some.inj hv]
    have held : clamp q * h.total ≤ 0 + ((buckets h).map Bucket.count).sum := by
      unfold buckets
      rw [zero_add, map_count_bucketsFrom]
      exact bounded
    have reached := ascending.rank_le_countBelow _ 0 held
    rw [zero_add, ← le_div_iff₀ positive] at reached
    have asked : min q 1 ≤ clamp q := min_le_min_right _ (le_max_left _ _)
    exact asked.trans ((le_clamp (clamp_le_one q)).trans (clamp_mono reached))

end Histogram

/-- Ten requests, three of them slower than the last bound. -/
def tenRequests : HistAccum where
  le := [1 / 10, 1 / 2, 1]
  counts := [4, 0, 3, 3]
  sum := 9
  count := 10

theorem ten_requests_consistent : Consistent tenRequests (1 / 10) 1 :=
  quantile_share_consistent ⟨by decide +kernel, by decide +kernel, rfl⟩ (by decide +kernel) rfl rfl

end Lss.Analysis.Quantiles
