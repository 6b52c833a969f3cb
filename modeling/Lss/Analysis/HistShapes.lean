import Mathlib.Data.List.Induction
import Lss.Model.HistExtract

/-!
# The shape of a histogram

The finite bounds of an extracted histogram ascend, and the differences of two scrapes are counts.
There is one count more than bounds exactly when the labels name at most one bound that is not
finite, and none below the finite ones.
-/

set_option autoImplicit false

namespace Lss.Analysis.HistShapes

open Lss.Model Lss.Model.HistExtract

/-! ## Kinds of numbers -/

theorem isFinite_iff_rank (b : Ieee) : b.isFinite = true ↔ b.rank = 2 := by
  cases b with
  | finite v => simp [Ieee.isFinite, Ieee.rank]
  | infinite s => cases s <;> simp [Ieee.isFinite, Ieee.rank]
  | nan s => cases s <;> simp [Ieee.isFinite, Ieee.rank]

def isNan : Ieee → Bool
  | .nan _ => true
  | _ => false

theorem same_iff (a b : Ieee) : a.same b = true ↔ a = b ∧ isNan a = false := by
  cases a <;> simp [Ieee.same, isNan]

/-! ## Bounds of a kind -/

/-- How many of some bounds are not finite: each that is no number counts, an infinity counts
once. -/
def oddBounds (bs : List Ieee) : ℕ :=
  bs.countP isNan + (if .infinite false ∈ bs then 1 else 0) + (if .infinite true ∈ bs then 1 else 0)

/-- No two of some bounds are equal as numbers. -/
def Distinct (bs : List Ieee) : Prop := bs.Pairwise fun a b => a.same b = false

theorem Distinct.countP_eq {bs : List Ieee} (h : Distinct bs) :
    (bs.countP fun b => !b.isFinite) = oddBounds bs := by
  unfold oddBounds
  induction bs with
  | nil => rfl
  | cons b bs ih =>
      obtain ⟨first, rest⟩ := List.pairwise_cons.mp h
      have fresh : isNan b = false → b ∉ bs := by
        intro number hb
        have apart := first b hb
        rw [(same_iff b b).mpr ⟨rfl, number⟩] at apart
        cases apart
      rw [List.countP_cons, List.countP_cons, ih rest]
      cases b with
      | finite v => simp [Ieee.isFinite, isNan]
      | infinite s =>
          have gone := fresh rfl
          cases s <;> simp [Ieee.isFinite, isNan, gone]
          omega
      | nan s =>
          simp [Ieee.isFinite, isNan]
          omega

/-! ## Merging rows -/

/-- The bounds after one more row. -/
theorem keys_addBound (le : Ieee) (count : ℚ) (bounds : List (Ieee × ℚ)) :
    (addBound le count bounds).map Prod.fst =
      if ∃ b ∈ bounds.map Prod.fst, b.same le = true then bounds.map Prod.fst
      else bounds.map Prod.fst ++ [le] := by
  induction bounds with
  | nil => rfl
  | cons b bounds ih =>
      unfold addBound
      by_cases h : b.1.same le = true
      · rw [if_pos h, if_pos ⟨b.1, List.mem_cons_self, h⟩]
        rfl
      · rw [if_neg h, List.map_cons, List.map_cons, ih]
        by_cases there : ∃ c ∈ bounds.map Prod.fst, c.same le = true
        · obtain ⟨c, hc, same⟩ := there
          rw [if_pos ⟨c, hc, same⟩, if_pos ⟨c, List.mem_cons_of_mem _ hc, same⟩]
        · rw [if_neg there, if_neg, List.cons_append]
          rintro ⟨c, hc, same⟩
          rcases List.mem_cons.mp hc with rfl | hc
          · exact h same
          · exact there ⟨c, hc, same⟩

/-- What the merged bounds keep of those that were read. -/
structure Merges (read keys : List Ieee) : Prop where
  distinct : Distinct keys
  mem : ∀ b, b ∈ keys ↔ b ∈ read
  nan : keys.countP isNan = read.countP isNan

theorem Merges.addBound {read : List Ieee} {bounds : List (Ieee × ℚ)}
    (h : Merges read (bounds.map Prod.fst)) (le : Ieee) (count : ℚ) :
    Merges (read ++ [le]) ((addBound le count bounds).map Prod.fst) := by
  rw [keys_addBound]
  generalize bounds.map Prod.fst = keys at h
  split
  · rename_i there
    obtain ⟨b, hb, same⟩ := there
    obtain ⟨rfl, number⟩ := (same_iff b le).mp same
    refine ⟨h.distinct, ?_, ?_⟩
    · intro c
      rw [List.mem_append, List.mem_singleton, h.mem]
      constructor
      · exact Or.inl
      · rintro (hc | rfl)
        · exact hc
        · exact (h.mem _).mp hb
    · rw [List.countP_append, h.nan]
      simp [number]
  · rename_i fresh
    refine ⟨?_, ?_, ?_⟩
    · unfold Distinct
      rw [List.pairwise_append]
      refine ⟨h.distinct, List.pairwise_singleton _ _, ?_⟩
      intro b hb c hc
      rw [List.mem_singleton.mp hc]
      exact Bool.eq_false_of_not_eq_true fun same => fresh ⟨b, hb, same⟩
    · intro c
      rw [List.mem_append, List.mem_append, h.mem]
    · rw [List.countP_append, List.countP_append, h.nan]

/-- The bounds that the labels of some rows name. -/
def named (rows : List (Prom.Series Ieee)) : List Ieee :=
  rows.filterMap fun s => (label s "le").bind boundOf

theorem Merges.readBounds {rows : List (Prom.Series Ieee)} {bounds : List (Ieee × ℚ)}
    (h : readBounds rows = some bounds) : Merges (named rows) (bounds.map Prod.fst) := by
  unfold HistExtract.readBounds at h
  induction rows using List.reverseRecOn generalizing bounds with
  | nil =>
      cases h
      exact ⟨List.Pairwise.nil, fun b => Iff.rfl, rfl⟩
  | append_singleton rows s ih =>
      rw [List.foldlM_append] at h
      obtain ⟨before, hbefore, h⟩ := Option.bind_eq_some_iff.mp h
      rw [List.foldlM_cons] at h
      obtain ⟨after, hafter, h⟩ := Option.bind_eq_some_iff.mp h
      obtain ⟨text, htext, hafter⟩ := Option.bind_eq_some_iff.mp hafter
      obtain ⟨le, hle, hafter⟩ := Option.bind_eq_some_iff.mp hafter
      obtain rfl : after = bounds := Option.some.inj h
      obtain rfl : HistExtract.addBound le _ before = after := Option.some.inj hafter
      have last : named [s] = [le] := by
        unfold named
        rw [List.filterMap_cons, htext, Option.bind_some, hle]
        rfl
      have split : named (rows ++ [s]) = named rows ++ [le] := by
        rw [← last]
        exact List.filterMap_append
      rw [split]
      exact (ih hbefore).addBound le _

/-! ## Sorting and closing -/

/-- The bounds of a histogram as they are sorted. -/
def sorted (bounds : List (Ieee × ℚ)) : List (Ieee × ℚ) :=
  bounds.mergeSort fun a b => a.1.totalLe b.1

theorem sorted_perm (bounds : List (Ieee × ℚ)) : (sorted bounds).Perm bounds :=
  List.mergeSort_perm _ _

theorem pairwise_sorted (bounds : List (Ieee × ℚ)) :
    ((sorted bounds).map Prod.fst).Pairwise fun a b => a.totalLe b = true := by
  rw [List.pairwise_map]
  exact List.pairwise_mergeSort (fun a b c => Ieee.totalLe_trans a.1 b.1 c.1)
    (fun a b => Ieee.totalLe_total a.1 b.1) bounds

theorem Merges.sorted {read : List Ieee} {bounds : List (Ieee × ℚ)}
    (h : Merges read (bounds.map Prod.fst)) : Merges read ((sorted bounds).map Prod.fst) := by
  have perm := (sorted_perm bounds).map Prod.fst
  refine ⟨?_, fun b => (perm.mem_iff).trans (h.mem b), (perm.countP_eq _).trans h.nan⟩
  apply (perm.pairwise_iff _).mpr h.distinct
  intro a b hab
  rw [Bool.eq_false_iff] at *
  intro hba
  obtain ⟨rfl, number⟩ := (same_iff b a).mp hba
  exact hab hba

/-- The finite bounds of a sorted list without equal ones ascend. -/
theorem pairwise_lt_values {keys : List Ieee} (distinct : Distinct keys)
    (order : keys.Pairwise fun a b => a.totalLe b = true) :
    (keys.filterMap Ieee.value?).Pairwise (· < ·) := by
  rw [List.pairwise_filterMap]
  apply (distinct.and order).imp
  rintro a b ⟨apart, below⟩ v hv w hw
  cases a with
  | finite v' =>
      cases b with
      | finite w' =>
          cases hv
          cases hw
          have value := (((Ieee.totalLe_iff _ _).mp below).resolve_left (lt_irrefl 2)).2
          refine lt_of_le_of_ne value ?_
          rintro rfl
          rw [(same_iff _ _).mpr ⟨rfl, rfl⟩] at apart
          cases apart
      | infinite s => cases hw
      | nan s => cases hw
  | infinite s => cases hv
  | nan s => cases hv

/-- Each bound is finite, and then has a value, or is not. -/
theorem length_eq (keys : List Ieee) :
    keys.length = (keys.filterMap Ieee.value?).length + keys.countP fun b => !b.isFinite := by
  induction keys with
  | nil => rfl
  | cons b keys ih =>
      rw [List.length_cons, List.countP_cons, ih]
      cases b with
      | finite v =>
          simp
          omega
      | infinite s =>
          simp [List.filterMap_cons]
          omega
      | nan s =>
          simp [List.filterMap_cons]
          omega

/-! ## The shape -/

/-- At most one bound that is not finite, and none below the finite ones. -/
def Honest (read : List Ieee) : Prop :=
  oddBounds read ≤ 1 ∧
    ((.infinite true ∉ read ∧ .nan true ∉ read) ∨ ∀ b ∈ read, b.isFinite = false)

instance (read : List Ieee) : Decidable (Honest read) := by
  unfold Honest
  infer_instance

theorem Merges.oddBounds_eq {read keys : List Ieee} (h : Merges read keys) :
    (keys.countP fun b => !b.isFinite) = oddBounds read := by
  rw [h.distinct.countP_eq]
  unfold oddBounds
  rw [h.nan]
  simp only [h.mem]

theorem rank_cases {b : Ieee} (h : b.isFinite = false) (low : b.rank ≤ 2) :
    b = .infinite true ∨ b = .nan true := by
  cases b with
  | finite v => cases h
  | infinite s =>
      cases s
      · exact absurd low (by decide)
      · exact Or.inl rfl
  | nan s =>
      cases s
      · exact absurd low (by decide)
      · exact Or.inr rfl

/-- No bound of a sorted list is of a later kind than the last. -/
theorem rank_le_last {keys : List Ieee} (order : keys.Pairwise fun a b => a.totalLe b = true)
    {last : Ieee} (hlast : keys.getLast? = some last) : ∀ b ∈ keys, b.rank ≤ last.rank := by
  obtain ⟨before, rfl⟩ := List.getLast?_eq_some_iff.mp hlast
  obtain ⟨-, -, below⟩ := List.pairwise_append.mp order
  intro b hb
  rcases List.mem_append.mp hb with hb | hb
  · exact Ieee.rank_le_of_totalLe (below b hb last List.mem_cons_self)
  · rw [List.mem_singleton.mp hb]

theorem mem_of_oddBounds_eq_zero {read : List Ieee} (h : oddBounds read = 0) {b : Ieee}
    (hb : b ∈ read) : b.isFinite = true := by
  unfold oddBounds at h
  cases b with
  | finite v => rfl
  | infinite s =>
      cases s
      · rw [if_pos hb] at h
        omega
      · rw [if_pos hb] at h
        omega
  | nan s =>
      have positive : 0 < read.countP isNan := List.countP_pos_iff.mpr ⟨_, hb, rfl⟩
      omega

/-- Behind sorted bounds that end in a finite one a bucket for everything is put: nothing but
finite bounds may stand in front of it. -/
theorem honest_of_finite_last {read keys : List Ieee} (h : Merges read keys)
    (order : keys.Pairwise fun a b => a.totalLe b = true) {last : Ieee}
    (hlast : keys.getLast? = some last) (finite : last.isFinite = true) :
    (keys.countP fun b => !b.isFinite) = 0 ↔ Honest read := by
  have there : last ∈ read := (h.mem last).mp (List.mem_of_getLast? hlast)
  constructor
  · intro none
    rw [h.oddBounds_eq] at none
    refine ⟨by omega, Or.inl ⟨?_, ?_⟩⟩
    · intro hb
      cases mem_of_oddBounds_eq_zero none hb
    · intro hb
      cases mem_of_oddBounds_eq_zero none hb
  · rintro ⟨-, noLow⟩
    obtain ⟨noInf, noNan⟩ := noLow.resolve_right fun odd => by
      rw [odd last there] at finite
      cases finite
    rw [List.countP_eq_zero]
    intro b hb odd
    have low := rank_le_last order hlast b hb
    rw [(isFinite_iff_rank last).mp finite] at low
    rw [Bool.not_eq_true'] at odd
    rcases rank_cases odd low with rfl | rfl
    · exact noInf ((h.mem _).mp hb)
    · exact noNan ((h.mem _).mp hb)

/-- Behind sorted bounds that end in one that is not finite nothing is put: that one has to be the
only one of its kind, and to be above the finite ones. -/
theorem honest_of_odd_last {read keys : List Ieee} (h : Merges read keys)
    (order : keys.Pairwise fun a b => a.totalLe b = true) {last : Ieee}
    (hlast : keys.getLast? = some last) (odd : last.isFinite = false) :
    (keys.countP fun b => !b.isFinite) = 1 ↔ Honest read := by
  have positive : 0 < keys.countP fun b => !b.isFinite :=
    List.countP_pos_iff.mpr ⟨last, List.mem_of_getLast? hlast, by rw [odd]; rfl⟩
  constructor
  · intro one
    refine ⟨h.oddBounds_eq ▸ one.le, ?_⟩
    by_cases high : 2 < last.rank
    · -- another bound that is not finite would be a second one
      obtain ⟨before, rfl⟩ := List.getLast?_eq_some_iff.mp hlast
      rw [List.countP_append, List.countP_singleton, odd] at one
      have finite : ∀ b ∈ before, b.isFinite = true := by
        have none : (before.countP fun b => !b.isFinite) = 0 := by
          simp only [Bool.not_false, if_true] at one
          omega
        intro b hb
        simpa using List.countP_eq_zero.mp none b hb
      have low : ∀ b, b.isFinite = false → b.rank ≤ 2 → b ∉ read := by
        intro b hodd hlow hb
        rcases List.mem_append.mp ((h.mem b).mpr hb) with hb | hb
        · rw [finite b hb] at hodd
          cases hodd
        · rw [List.mem_singleton.mp hb] at hlow
          omega
      exact Or.inl ⟨low _ rfl (by decide), low _ rfl (by decide)⟩
    · right
      intro b hb
      by_contra finite
      rw [Bool.not_eq_false] at finite
      have below := rank_le_last order hlast b ((h.mem b).mpr hb)
      rw [(isFinite_iff_rank b).mp finite] at below
      rw [(isFinite_iff_rank last).mpr (by omega)] at odd
      cases odd
  · rintro ⟨atMost, -⟩
    rw [← h.oddBounds_eq] at atMost
    omega

theorem closeBounds_keys (bounds : List (Ieee × ℚ)) :
    (closeBounds bounds).map Prod.fst =
      if (bounds.map Prod.fst).getLast?.all Ieee.isFinite then
        bounds.map Prod.fst ++ [.infinite false]
      else bounds.map Prod.fst := by
  have last : (bounds.map Prod.fst).getLast?.all Ieee.isFinite =
      bounds.getLast?.all fun b => b.1.isFinite := by
    rw [List.getLast?_map]
    cases bounds.getLast? <;> rfl
  unfold closeBounds
  rw [last]
  split
  · rw [List.map_append]
    rfl
  · rfl

/-- One count more than finite bounds: exactly one bound that is not finite. -/
theorem shape_iff {read : List Ieee} {bounds : List (Ieee × ℚ)}
    (h : Merges read (bounds.map Prod.fst))
    (order : (bounds.map Prod.fst).Pairwise fun a b => a.totalLe b = true) :
    (((closeBounds bounds).map Prod.fst).countP fun b => !b.isFinite) = 1 ↔ Honest read := by
  rw [closeBounds_keys]
  cases hlast : (bounds.map Prod.fst).getLast? with
  | none =>
      have empty : bounds.map Prod.fst = [] := List.getLast?_eq_none_iff.mp hlast
      rw [empty] at h ⊢
      have nothing : ∀ b, b ∉ read := fun b hb => nomatch (h.mem b).mpr hb
      refine ⟨fun _ => ⟨?_, Or.inl ⟨nothing _, nothing _⟩⟩, fun _ => rfl⟩
      rw [List.eq_nil_iff_forall_not_mem.mpr nothing]
      decide
  | some last =>
      by_cases finite : last.isFinite = true
      · rw [← honest_of_finite_last h order hlast finite, Option.all_some, if_pos finite,
          List.countP_append]
        simp
      · have odd : last.isFinite = false := Bool.eq_false_of_not_eq_true finite
        rw [← honest_of_odd_last h order hlast odd, Option.all_some, if_neg finite]

/-! ## Extraction -/

/-- The bounds that the labels of the counting bucket rows name. -/
def readLabels (series : List (Prom.Series Ieee)) (family : String)
    (only : Option (String × String)) : List Ieee :=
  named (bucketRows (carrying series only) family)

/-- A histogram comes from the sorted and closed bounds of its rows. -/
theorem exists_bounds {series : List (Prom.Series Ieee)} {family : String}
    {only : Option (String × String)} {h : HistSnapshot}
    (hh : extractHistogramWhere series family only = some h) :
    ∃ bounds : List (Ieee × ℚ),
      Merges (readLabels series family only) (bounds.map Prod.fst) ∧
      (bounds.map Prod.fst).Pairwise (fun a b => a.totalLe b = true) ∧
      h.le = ((closeBounds bounds).map Prod.fst).filterMap Ieee.value? ∧
      h.cum = (closeBounds bounds).map Prod.snd := by
  unfold extractHistogramWhere at hh
  dsimp only at hh
  split at hh
  · cases hh
  · obtain ⟨bounds, hbounds, rfl⟩ := Option.map_eq_some_iff.mp hh
    refine ⟨sorted bounds, (Merges.readBounds hbounds).sorted, pairwise_sorted bounds, ?_, rfl⟩
    rw [List.filterMap_map]
    rfl

theorem le_ascending {series : List (Prom.Series Ieee)} {family : String}
    {only : Option (String × String)} {h : HistSnapshot}
    (hh : extractHistogramWhere series family only = some h) : h.le.Pairwise (· < ·) := by
  obtain ⟨bounds, merges, order, hle, -⟩ := exists_bounds hh
  have values := pairwise_lt_values merges.distinct order
  rw [hle, closeBounds_keys]
  split
  · have tail : [Ieee.infinite false].filterMap Ieee.value? = [] := rfl
    rw [List.filterMap_append, tail, List.append_nil]
    exact values
  · exact values

theorem cum_length_iff {series : List (Prom.Series Ieee)} {family : String}
    {only : Option (String × String)} {h : HistSnapshot}
    (hh : extractHistogramWhere series family only = some h) :
    h.cum.length = h.le.length + 1 ↔ Honest (readLabels series family only) := by
  obtain ⟨bounds, merges, order, hle, hcum⟩ := exists_bounds hh
  have length := length_eq ((closeBounds bounds).map Prod.fst)
  rw [List.length_map] at length
  rw [← shape_iff merges order, hle, hcum, List.length_map, length]
  omega

/-! ## Differences -/

theorem perBucket_nonneg (cum : List ℚ) : ∀ c ∈ perBucket cum, 0 ≤ c := by
  unfold perBucket
  induction cum using List.reverseRecOn with
  | nil =>
      intro c hc
      cases hc
  | append_singleton cum x ih =>
      rw [List.foldl_concat]
      intro c hc
      rcases List.mem_append.mp hc with hc | hc
      · exact ih c hc
      · rw [List.mem_singleton.mp hc]
        exact le_max_right _ _

theorem histDelta_nonneg (prev cur : HistSnapshot) : ∀ c ∈ (histDelta prev cur).counts, 0 ≤ c := by
  unfold histDelta
  dsimp only
  split
  · exact perBucket_nonneg _
  · exact perBucket_nonneg _

/-! ## The result -/

/-- Whatever page a histogram is extracted from, its bounds ascend and its difference to any other
scrape has no negative count. It has one count more than bounds exactly when its labels are
honest. -/
theorem histogram_shape_iff (text family : String) (only : Option (String × String))
    {h : HistSnapshot} (hh : extractHistogramWhere (Prom.parse text) family only = some h) :
    (h.le.Pairwise (· < ·) ∧ h.cum.length = h.le.length + 1 ∧
      ∀ prev : HistSnapshot, ∀ c ∈ (histDelta prev h).counts, 0 ≤ c) ↔
      Honest (readLabels (Prom.parse text) family only) := by
  rw [← cum_length_iff hh]
  constructor
  · rintro ⟨-, length, -⟩
    exact length
  · intro length
    exact ⟨le_ascending hh, length, fun prev => histDelta_nonneg prev h⟩

/-! ## Two pages -/

/-- The line of a bucket, in front of its value. -/
def bucketText (name le rest : List Char) : List Char :=
  name ++ '{' :: 'l' :: 'e' :: '=' :: '"' :: (le ++ '"' :: '}' :: rest)

open Library.Lines in
theorem parseLine_bucketText {name le rest : List Char} {word : String} {value : Ieee}
    (ends : trimmed isBlank (bucketText name le rest) = bucketText name le rest)
    (hname : name ≠ [] ∧ name.head? ≠ some '#' ∧ ∀ c ∈ name, !(c = '{' || c = ' '))
    (hle : ∀ c ∈ le, c ≠ '\\' ∧ c ≠ '"') (hword : Prom.firstWord rest = some word)
    (hvalue : Prom.readValue word = some value) :
    Prom.parseLine (bucketText name le rest) =
      some ⟨String.ofList name, [("le", String.ofList le)], value⟩ := by
  have quoted : Prom.labelValue (le ++ '"' :: '}' :: rest) = some (le, '}' :: rest) := by
    clear ends
    induction le with
    | nil => exact Prom.labelValue_quote _
    | cons c le ih =>
        obtain ⟨h₁, h₂⟩ := hle c List.mem_cons_self
        rw [List.cons_append, Prom.labelValue_char h₁ h₂,
          ih fun d hd => hle d (List.mem_cons_of_mem _ hd)]
        rfl
  have skip : ('l' :: (['e'] ++ '=' :: '"' :: (le ++ '"' :: '}' :: rest))).dropWhile
      (fun c => c = ',' || c = ' ') = 'l' :: (['e'] ++ '=' :: '"' :: (le ++ '"' :: '}' :: rest)) :=
    List.dropWhile_cons_of_neg (by decide)
  have block := Prom.parseLabels_label skip (by decide) (by decide) quoted
  rw [Prom.parseLabels_close, Option.map_some] at block
  have first : bucketText name le rest ≠ [] ∧ (bucketText name le rest).head? = name.head? := by
    obtain ⟨c, tail, rfl⟩ := List.exists_cons_of_ne_nil hname.1
    exact ⟨List.cons_ne_nil _ _, rfl⟩
  have take : (bucketText name le rest).takeWhile (fun c => !(c = '{' || c = ' ')) = name := by
    unfold bucketText
    rw [List.takeWhile_append_of_pos hname.2.2, List.takeWhile_cons_of_neg (by decide),
      List.append_nil]
  have drop : (bucketText name le rest).dropWhile (fun c => !(c = '{' || c = ' ')) =
      '{' :: ('l' :: (['e'] ++ '=' :: '"' :: (le ++ '"' :: '}' :: rest))) := by
    unfold bucketText
    rw [List.dropWhile_append_of_pos hname.2.2, List.dropWhile_cons_of_neg (by decide)]
    rfl
  unfold Prom.parseLine
  rw [ends]
  dsimp only
  rw [if_neg, take, drop, if_neg, List.head?_cons, if_pos rfl, List.tail_cons, block,
    Option.bind_some, hword, Option.bind_some, hvalue]
  · rfl
  · rintro (h | h)
    · cases h
    · exact hname.1 h
  · rintro (h | h)
    · exact first.1 h
    · exact hname.2.1 (first.2 ▸ h)

/-- A page of buckets of one histogram, each with its bound and its count. -/
def page (rows : List (String × String)) : String :=
  String.ofList (Library.Lines.joined (rows.map fun r =>
    bucketText "h_bucket".toList r.1.toList (' ' :: r.2.toList)))

/-- What a page has to keep to. -/
def Written (r : String × String) (value : ℚ) : Prop :=
  let text := bucketText "h_bucket".toList r.1.toList (' ' :: r.2.toList)
  Library.Lines.OneLine text ∧ Library.Lines.trimmed isBlank text = text ∧
    (∀ c ∈ r.1.toList, c ≠ '\\' ∧ c ≠ '"') ∧ Prom.firstWord (' ' :: r.2.toList) = some r.2 ∧
    Prom.readValue r.2 = some (Ieee.finite value)

instance (r : String × String) (value : ℚ) : Decidable (Written r value) := by
  unfold Written Library.Lines.OneLine
  infer_instance

theorem parse_page {rows : List (String × String × ℚ)}
    (h : ∀ r ∈ rows, Written (r.1, r.2.1) r.2.2) :
    Prom.parse (page (rows.map fun r => (r.1, r.2.1))) =
      rows.map fun r => ⟨"h_bucket", [("le", r.1)], Ieee.finite r.2.2⟩ := by
  unfold Prom.parse page
  rw [String.toList_ofList, List.map_map, Library.Lines.lines_joined, List.filterMap_map]
  · rw [← List.filterMap_eq_map]
    apply List.filterMap_congr
    intro r hr
    obtain ⟨-, ends, hle, hword, hvalue⟩ := h r hr
    have line := parseLine_bucketText ends (by decide) hle hword hvalue
    rw [String.ofList_toList, String.ofList_toList] at line
    exact line
  · intro text htext
    obtain ⟨r, hr, rfl⟩ := List.mem_map.mp htext
    exact (h r hr).1

/-- Two buckets and the one for everything. -/
def usualRows : List (String × String × ℚ) := [("0.5", "2", 2), ("0.1", "1", 1), ("+Inf", "3", 3)]

@[inherit_doc usualRows]
def usualPage : String := page (usualRows.map fun r => (r.1, r.2.1))

/-- A bucket whose bound is no number, beside the one for everything. -/
def oddRows : List (String × String × ℚ) := [("NaN", "1", 1), ("+Inf", "2", 2)]

@[inherit_doc oddRows]
def oddPage : String := page (oddRows.map fun r => (r.1, r.2.1))

theorem extracted_of_rows {rows : List (String × String × ℚ)}
    (h : ∀ r ∈ rows, Written (r.1, r.2.1) r.2.2)
    (extracted : (extractHistogramWhere (rows.map fun r =>
      ⟨"h_bucket", [("le", r.1)], Ieee.finite r.2.2⟩) "h" none).isSome = true) :
    ∃ snapshot, extractHistogramWhere (Prom.parse (page (rows.map fun r => (r.1, r.2.1)))) "h"
      none = some snapshot := by
  rw [parse_page h]
  exact Option.isSome_iff_exists.mp extracted

theorem usual_page_is_shaped :
    ∃ h, extractHistogramWhere (Prom.parse usualPage) "h" none = some h ∧
      h.le.Pairwise (· < ·) ∧ h.cum.length = h.le.length + 1 ∧
      ∀ prev : HistSnapshot, ∀ c ∈ (histDelta prev h).counts, 0 ≤ c := by
  have written : ∀ r ∈ usualRows, Written (r.1, r.2.1) r.2.2 := by decide +kernel
  obtain ⟨h, hh⟩ := extracted_of_rows written (by decide +kernel)
  refine ⟨h, hh, (histogram_shape_iff usualPage "h" none hh).mpr ?_⟩
  unfold usualPage
  rw [parse_page written]
  decide +kernel

/-- There are two counts, one for what is no number and one for everything, and no bound. -/
theorem nan_bound_breaks_shape :
    ∃ h, extractHistogramWhere (Prom.parse oddPage) "h" none = some h ∧
      h.cum.length ≠ h.le.length + 1 := by
  have written : ∀ r ∈ oddRows, Written (r.1, r.2.1) r.2.2 := by decide +kernel
  obtain ⟨h, hh⟩ := extracted_of_rows written (by decide +kernel)
  refine ⟨h, hh, ?_⟩
  rw [ne_eq, cum_length_iff hh, parse_page written]
  decide +kernel

end Lss.Analysis.HistShapes
