import Mathlib.Data.Int.Basic
import Mathlib.Data.List.Basic
import Mathlib.Data.List.Induction
import Mathlib.Data.List.Perm.Basic
import Mathlib.Algebra.Order.Ring.Int
import Mathlib.Tactic.Ring

/-!
# Buckets of time

Time is cut into buckets of a fixed length, each named by its start. The facts here are about
the bucket of a time, about coarser and finer buckets, and about lists of things in order of
time: which of them share a bucket, and when a bucket is closed, that is, has something of a
later bucket after it.
-/

set_option autoImplicit false

namespace Lss.Library.Buckets

/-- The start of the bucket of length `res` that a time falls into. -/
def bucket (res t : ℤ) : ℤ := t - t % res

section Arithmetic

variable {res : ℤ} (hres : 0 < res)
include hres

theorem bucket_le (t : ℤ) : bucket res t ≤ t := by
  unfold bucket
  have hmod := Int.emod_nonneg t hres.ne'
  omega

theorem lt_bucket_add (t : ℤ) : t < bucket res t + res := by
  unfold bucket
  have hmod := Int.emod_lt_of_pos t hres
  omega

omit hres in
theorem bucket_dvd (t : ℤ) : res ∣ bucket res t := by
  unfold bucket
  exact Int.dvd_self_sub_of_emod_eq rfl

/-- A bucket starts at or after a multiple of its length exactly when its times do. -/
theorem le_bucket_iff {b : ℤ} (hb : res ∣ b) (t : ℤ) : b ≤ bucket res t ↔ b ≤ t := by
  constructor
  · intro h
    exact h.trans (bucket_le hres t)
  · intro h
    by_contra hlt
    obtain ⟨x, rfl⟩ := hb
    have hdvd : res ∣ bucket res t := bucket_dvd t
    obtain ⟨y, hy⟩ := hdvd
    have hnext := lt_bucket_add hres t
    rw [hy] at hlt hnext
    have hxy : y < x := lt_of_mul_lt_mul_left (not_le.1 hlt) hres.le
    have hstep : res * y + res ≤ res * x := by
      calc res * y + res = res * (y + 1) := by ring
        _ ≤ res * x := mul_le_mul_of_nonneg_left hxy hres.le
    omega

theorem bucket_mono {s t : ℤ} (h : s ≤ t) : bucket res s ≤ bucket res t :=
  (le_bucket_iff hres (bucket_dvd s) t).2 ((bucket_le hres s).trans h)

theorem bucket_eq_iff {b : ℤ} (hb : res ∣ b) (t : ℤ) :
    bucket res t = b ↔ b ≤ t ∧ t < b + res := by
  constructor
  · rintro rfl
    exact ⟨bucket_le hres t, lt_bucket_add hres t⟩
  · rintro ⟨hle, hlt⟩
    apply le_antisymm _ ((le_bucket_iff hres hb t).2 hle)
    obtain ⟨x, rfl⟩ := hb
    have hdvd : res ∣ bucket res t := bucket_dvd t
    obtain ⟨y, hy⟩ := hdvd
    have hbelow := bucket_le hres t
    rw [hy] at hbelow ⊢
    have hyx : y < x + 1 := by
      apply lt_of_mul_lt_mul_left _ hres.le
      calc res * y ≤ t := hbelow
        _ < res * x + res := hlt
        _ = res * (x + 1) := by ring
    exact mul_le_mul_of_nonneg_left (by omega) hres.le

/-- A bucket is before that of a time exactly when it has ended by then. -/
theorem lt_bucket_iff {b : ℤ} (hb : res ∣ b) (t : ℤ) : b < bucket res t ↔ b + res ≤ t := by
  constructor
  · intro hlt
    have hbt : b ≤ t := hlt.le.trans (bucket_le hres t)
    by_contra hnot
    have heq := (bucket_eq_iff hres hb t).2 ⟨hbt, not_le.1 hnot⟩
    omega
  · intro hle
    have hnext := (le_bucket_iff hres (Int.dvd_add hb (Int.dvd_refl res)) t).2 hle
    omega

end Arithmetic

/-! ## Things in order of time -/

section Lists

variable {α : Type*} (time : α → ℤ) (res : ℤ)

/-- The things of one bucket. -/
def inBucket (b : ℤ) (xs : List α) : List α := xs.filter fun x => bucket res (time x) = b

/-- Whether a bucket is closed: something of a later bucket is there. -/
def Closed (b : ℤ) (xs : List α) : Prop := ∃ x ∈ xs, b < bucket res (time x)

instance (b : ℤ) (xs : List α) : Decidable (Closed time res b xs) :=
  inferInstanceAs (Decidable (∃ x ∈ xs, b < bucket res (time x)))

/-- What closes a bucket: the first thing of a later one. -/
def closer (b : ℤ) (xs : List α) : Option α := xs.find? fun x => b < bucket res (time x)

variable {time res}

theorem inBucket_append (b : ℤ) (xs ys : List α) :
    inBucket time res b (xs ++ ys) = inBucket time res b xs ++ inBucket time res b ys := by
  unfold inBucket
  rw [List.filter_append]

theorem inBucket_eq_nil {b : ℤ} {xs : List α} (h : ∀ x ∈ xs, bucket res (time x) ≠ b) :
    inBucket time res b xs = [] := by
  unfold inBucket
  rw [List.filter_eq_nil_iff]
  intro x hx
  simpa using h x hx

theorem closed_iff_closer {b : ℤ} {xs : List α} :
    Closed time res b xs ↔ (closer time res b xs).isSome = true := by
  unfold Closed closer
  rw [List.find?_isSome]
  simp

theorem closer_eq_none {b : ℤ} {xs : List α} :
    closer time res b xs = none ↔ ∀ x ∈ xs, bucket res (time x) ≤ b := by
  unfold closer
  rw [List.find?_eq_none]
  simp

theorem closer_append (b : ℤ) (xs ys : List α) :
    closer time res b (xs ++ ys) = (closer time res b xs).or (closer time res b ys) := by
  unfold closer
  rw [List.find?_append]

/-- Nothing more comes into a bucket that is closed. -/
theorem inBucket_of_closed (hres : 0 < res) {b : ℤ} {xs ys : List α}
    (h : Closed time res b xs) (ordered : (xs ++ ys).Pairwise fun x y => time x ≤ time y) :
    inBucket time res b (xs ++ ys) = inBucket time res b xs := by
  obtain ⟨x, hx, hlater⟩ := h
  have hnone : inBucket time res b ys = [] := by
    apply inBucket_eq_nil
    intro y hy heq
    have hle : time x ≤ time y := (List.pairwise_append.1 ordered).2.2 x hx y hy
    have hmono := bucket_mono hres hle
    omega
  rw [inBucket_append, hnone, List.append_nil]

/-- Going through buckets in order goes through the things of all of them in order. -/
theorem flatMap_inBucket {β : Type*} (f : α → List β) {bs : List ℤ} {xs : List α}
    {keep : α → Bool} (hres : 0 < res) (increasing : bs.Pairwise (· < ·))
    (ordered : xs.Pairwise fun x y => time x ≤ time y)
    (hkeep : ∀ x ∈ xs, f x ≠ [] → (keep x = true ↔ bucket res (time x) ∈ bs)) :
    bs.flatMap (fun b => (inBucket time res b xs).flatMap f) = (xs.filter keep).flatMap f := by
  induction xs using List.reverseRecOn with
  | nil => exact List.flatMap_eq_nil_iff.2 fun b _ => rfl
  | append_singleton xs x ih =>
      obtain ⟨hordered, -, hlast⟩ := List.pairwise_append.1 ordered
      have hbefore := ih hordered fun y hy => hkeep y (by simp [hy])
      have hx := hkeep x (by simp)
      rw [List.filter_append, List.flatMap_append, ← hbefore]
      simp only [inBucket_append, List.flatMap_append]
      by_cases hin : f x ≠ [] ∧ bucket res (time x) ∈ bs
      · -- the last thing goes to the end of its bucket, and later buckets are empty
        obtain ⟨hne, hmem⟩ := hin
        obtain ⟨pre, post, rfl⟩ := List.append_of_mem hmem
        have hkept : [x].filter keep = [x] := by
          rw [List.filter_cons_of_pos ((hx hne).2 hmem)]
          rfl
        obtain ⟨-, hpost, hpre⟩ := List.pairwise_append.1 increasing
        have hearlier : ∀ b ∈ pre, inBucket time res b [x] = [] := by
          intro b hb
          apply inBucket_eq_nil
          intro y hy heq
          rw [List.mem_singleton.1 hy] at heq
          have hlt := hpre b hb (bucket res (time x)) (by simp)
          omega
        have hlater : ∀ b ∈ post, inBucket time res b (xs ++ [x]) = [] := by
          intro b hb
          apply inBucket_eq_nil
          intro y hy heq
          have hlt := (List.pairwise_cons.1 hpost).1 b hb
          have hle : bucket res (time y) ≤ bucket res (time x) := by
            apply bucket_mono hres
            rcases List.mem_append.1 hy with hy | hy
            · exact hlast y hy x (by simp)
            · rw [List.mem_singleton.1 hy]
          omega
        have hself : inBucket time res (bucket res (time x)) [x] = [x] := by
          unfold inBucket
          simp
        have hempty : ∀ ys : List α, (∀ b ∈ post, inBucket time res b ys = []) →
            post.flatMap (fun b => (inBucket time res b ys).flatMap f) = [] := by
          intro ys hys
          rw [List.flatMap_eq_nil_iff]
          intro b hb
          rw [hys b hb]
          rfl
        have hboth : ∀ b ∈ post, inBucket time res b xs = [] ∧ inBucket time res b [x] = [] := by
          intro b hb
          have h := hlater b hb
          rw [inBucket_append, List.append_eq_nil_iff] at h
          exact h
        have hpreEq : pre.flatMap (fun b => (inBucket time res b xs).flatMap f ++
            (inBucket time res b [x]).flatMap f) =
            pre.flatMap fun b => (inBucket time res b xs).flatMap f := by
          apply List.flatMap_congr
          intro b hb
          rw [hearlier b hb, List.flatMap_nil, List.append_nil]
        have hpostEq : post.flatMap (fun b => (inBucket time res b xs).flatMap f ++
            (inBucket time res b [x]).flatMap f) = [] := by
          rw [List.flatMap_eq_nil_iff]
          intro b hb
          rw [(hboth b hb).1, (hboth b hb).2]
          rfl
        rw [hkept, List.flatMap_append, List.flatMap_append, List.flatMap_cons, List.flatMap_cons,
          hpreEq, hpostEq, hself, hempty xs fun b hb => (hboth b hb).1]
        simp
      · have hnone : ([x].filter keep).flatMap f = [] := by
          by_cases hne : f x = []
          · cases hk : keep x <;> simp [hk, hne]
          · have hnot : keep x = false := by
              rw [← Bool.not_eq_true, hx hne]
              exact fun hmem => hin ⟨hne, hmem⟩
            simp [hnot]
        rw [hnone, List.append_nil]
        apply List.flatMap_congr
        intro b hb
        have hfree : (inBucket time res b [x]).flatMap f = [] := by
          unfold inBucket
          by_cases hbx : bucket res (time x) = b
          · have hne : f x = [] := by
              by_contra hne
              exact hin ⟨hne, hbx ▸ hb⟩
            simp [hbx, hne]
          · simp [hbx]
        rw [hfree, List.append_nil]

/-- Going through the buckets of a range goes through the things of all of them, in whatever
order these are. -/
theorem flatMap_range_perm {β : Type*} (f : α → List β) (start : ℤ) (n : ℕ) (xs : List α) :
    ((List.range n).flatMap fun i : ℕ => (inBucket time res (start + i) xs).flatMap f).Perm
      ((xs.filter fun x => start ≤ bucket res (time x) ∧ bucket res (time x) < start + n).flatMap
        f) := by
  induction n with
  | zero =>
      have hnone : (xs.filter fun x => start ≤ bucket res (time x) ∧
          bucket res (time x) < start + (0 : ℕ)) = [] := by
        rw [List.filter_eq_nil_iff]
        intro x _
        simp
      rw [hnone]
      exact List.Perm.nil
  | succ n ih =>
      rw [List.range_succ, List.flatMap_append, List.flatMap_singleton]
      refine (ih.append_right _).trans ?_
      rw [← List.flatMap_append]
      apply List.Perm.flatMap_right
      -- the last bucket of the range and the buckets before it
      have hsplit := List.filter_append_perm (fun x => decide (bucket res (time x) < start + n))
        (xs.filter fun x => start ≤ bucket res (time x) ∧
          bucket res (time x) < start + (n + 1 : ℕ))
      refine List.Perm.trans (List.Perm.of_eq ?_) hsplit
      unfold inBucket
      rw [List.filter_filter, List.filter_filter]
      congr 1
      · apply List.filter_congr
        intro x _
        rw [← Bool.decide_and, decide_eq_decide]
        push_cast
        omega
      · apply List.filter_congr
        intro x _
        rw [← decide_not, ← Bool.decide_and, decide_eq_decide]
        push_cast
        omega

end Lists

end Lss.Library.Buckets
