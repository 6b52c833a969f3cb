import Mathlib.Data.List.Induction
import Mathlib.Tactic.Common

/-!
# Logs in which alarms are raised and cleared

A log is a list of events. Two disjoint kinds of events matter: those that raise an alarm
and those that clear it. A log is *paired* when every clearing event has a raising event
before it, since the previous clearing event; it is *separated* when between two raising
events there is a clearing event. Both are decided by one pass over the log that remembers
a single bit, whether the alarm is outstanding, and this pass is what the invariant of a
machine that writes the log refers to.
-/

set_option autoImplicit false

namespace Lss.Library.AlertLog

variable {ε : Type*} (isRaise isClear : ε → Bool)

/-- Whether an alarm is outstanding after a log, when it was `o` before. -/
def outstandingFrom : Bool → List ε → Bool
  | o, [] => o
  | o, e :: es => outstandingFrom (if isClear e then false else if isRaise e then true else o) es

/-- Every clearing event finds the alarm outstanding. -/
def PairedFrom : Bool → List ε → Prop
  | _, [] => True
  | o, e :: es =>
    (isClear e = true → o = true) ∧
      PairedFrom (if isClear e then false else if isRaise e then true else o) es

/-- Every raising event finds the alarm not outstanding. -/
def SeparatedFrom : Bool → List ε → Prop
  | _, [] => True
  | o, e :: es =>
    (isRaise e = true → isClear e = false → o = false) ∧
      SeparatedFrom (if isClear e then false else if isRaise e then true else o) es

/-! ## How the pass composes -/

theorem outstandingFrom_append (o : Bool) (es fs : List ε) :
    outstandingFrom isRaise isClear o (es ++ fs) =
      outstandingFrom isRaise isClear (outstandingFrom isRaise isClear o es) fs := by
  induction es generalizing o with
  | nil => rfl
  | cons e es ih => simp only [List.cons_append, outstandingFrom, ih]

theorem pairedFrom_append (o : Bool) (es fs : List ε) :
    PairedFrom isRaise isClear o (es ++ fs) ↔ PairedFrom isRaise isClear o es ∧
      PairedFrom isRaise isClear (outstandingFrom isRaise isClear o es) fs := by
  induction es generalizing o with
  | nil => simp [PairedFrom, outstandingFrom]
  | cons e es ih => simp only [List.cons_append, PairedFrom, outstandingFrom, ih, and_assoc]

theorem separatedFrom_append (o : Bool) (es fs : List ε) :
    SeparatedFrom isRaise isClear o (es ++ fs) ↔ SeparatedFrom isRaise isClear o es ∧
      SeparatedFrom isRaise isClear (outstandingFrom isRaise isClear o es) fs := by
  induction es generalizing o with
  | nil => simp [SeparatedFrom, outstandingFrom]
  | cons e es ih => simp only [List.cons_append, SeparatedFrom, outstandingFrom, ih, and_assoc]

/-! ## A log seen through a projection

Where only the relevant events of a log raise or clear, the pass over the log is the pass
over the projections of its relevant events. -/

section Projection

variable {isRaise isClear} {δ : Type*} {relevant : δ → Bool} {f : δ → ε}
  {isRaise' isClear' : δ → Bool} (hraise : ∀ d, isRaise' d = (relevant d && isRaise (f d)))
  (hclear : ∀ d, isClear' d = (relevant d && isClear (f d)))
include hraise hclear

theorem outstandingFrom_project (o : Bool) (ds : List δ) :
    outstandingFrom isRaise isClear o ((ds.filter relevant).map f) =
      outstandingFrom isRaise' isClear' o ds := by
  induction ds generalizing o with
  | nil => rfl
  | cons d ds ih =>
      cases h : relevant d with
      | true =>
          rw [List.filter_cons_of_pos h]
          simp only [List.map_cons, outstandingFrom, ih, hraise, hclear, h, Bool.true_and]
      | false =>
          rw [List.filter_cons_of_neg (by simp [h])]
          simp only [outstandingFrom, ih, hraise, hclear, h, Bool.false_and]
          simp

theorem pairedFrom_project (o : Bool) (ds : List δ) :
    PairedFrom isRaise isClear o ((ds.filter relevant).map f) ↔
      PairedFrom isRaise' isClear' o ds := by
  induction ds generalizing o with
  | nil => rfl
  | cons d ds ih =>
      cases h : relevant d with
      | true =>
          rw [List.filter_cons_of_pos h]
          simp only [List.map_cons, PairedFrom, ih, hraise, hclear, h, Bool.true_and]
      | false =>
          rw [List.filter_cons_of_neg (by simp [h])]
          simp only [PairedFrom, ih, hraise, hclear, h, Bool.false_and]
          simp

theorem separatedFrom_project (o : Bool) (ds : List δ) :
    SeparatedFrom isRaise isClear o ((ds.filter relevant).map f) ↔
      SeparatedFrom isRaise' isClear' o ds := by
  induction ds generalizing o with
  | nil => rfl
  | cons d ds ih =>
      cases h : relevant d with
      | true =>
          rw [List.filter_cons_of_pos h]
          simp only [List.map_cons, SeparatedFrom, ih, hraise, hclear, h, Bool.true_and]
      | false =>
          rw [List.filter_cons_of_neg (by simp [h])]
          simp only [SeparatedFrom, ih, hraise, hclear, h, Bool.false_and]
          simp

end Projection

/-- A log in which nothing clears is paired. -/
theorem pairedFrom_of_no_clear {o : Bool} {es : List ε} (h : ∀ e ∈ es, isClear e = false) :
    PairedFrom isRaise isClear o es := by
  induction es generalizing o with
  | nil => trivial
  | cons e es ih =>
      refine ⟨?_, ih fun e' he' => h e' (List.mem_cons_of_mem _ he')⟩
      intro hc
      rw [h e (by simp)] at hc
      exact absurd hc (by decide)

/-! ## What the pass says about a log -/

/-- Every clearing event has a raising event before it, since the previous clearing event. -/
def Paired (log : List ε) : Prop :=
  ∀ pre c post, log = pre ++ c :: post → isClear c = true →
    ∃ a r b, pre = a ++ r :: b ∧ isRaise r = true ∧ ∀ x ∈ b, isClear x = false

/-- Between two raising events there is a clearing event. -/
def Separated (log : List ε) : Prop :=
  ∀ a r b r' c, log = a ++ r :: (b ++ r' :: c) → isRaise r = true → isRaise r' = true →
    ∃ x ∈ b, isClear x = true

variable {isRaise isClear}

/-- An outstanding alarm was raised since the last clearing event. -/
theorem exists_raise_of_outstanding {log : List ε}
    (h : outstandingFrom isRaise isClear false log = true) :
    ∃ a r b, log = a ++ r :: b ∧ isRaise r = true ∧ ∀ x ∈ b, isClear x = false := by
  induction log using List.reverseRecOn with
  | nil => simp [outstandingFrom] at h
  | append_singleton log e ih =>
      rw [outstandingFrom_append] at h
      simp only [outstandingFrom] at h
      cases hc : isClear e with
      | true => simp [hc] at h
      | false =>
          cases hr : isRaise e with
          | true => exact ⟨log, e, [], by simp, hr, by simp⟩
          | false =>
              obtain ⟨a, r, b, rfl, hr', hb⟩ := ih (by simpa [hc, hr] using h)
              refine ⟨a, r, b ++ [e], by simp, hr', ?_⟩
              intro x hx
              rcases List.mem_append.1 hx with hx | hx
              · exact hb x hx
              · rw [List.mem_singleton.1 hx]; exact hc

/-- A raised alarm stays outstanding while nothing clears it. -/
theorem outstanding_of_raise {o : Bool} {r : ε} {b : List ε} (hr : isRaise r = true)
    (hrc : isClear r = false) (hb : ∀ x ∈ b, isClear x = false) :
    outstandingFrom isRaise isClear o (r :: b) = true := by
  simp only [outstandingFrom, hr, hrc]
  simp only [Bool.false_eq_true, if_false, if_true]
  induction b with
  | nil => rfl
  | cons x b ih =>
      have hx : isClear x = false := hb x (by simp)
      simp only [outstandingFrom, hx, Bool.false_eq_true, if_false, ite_self]
      exact ih fun y hy => hb y (by simp [hy])

theorem paired_of_pairedFrom {log : List ε} (h : PairedFrom isRaise isClear false log) :
    Paired isRaise isClear log := by
  intro pre c post hlog hc
  rw [hlog, pairedFrom_append] at h
  exact exists_raise_of_outstanding (h.2.1 hc)

theorem separated_of_separatedFrom (disjoint : ∀ e, isRaise e = true → isClear e = false)
    {log : List ε} (h : SeparatedFrom isRaise isClear false log) :
    Separated isRaise isClear log := by
  intro a r b r' c hlog hr hr'
  by_contra hnone
  have hb : ∀ x ∈ b, isClear x = false := by
    intro x hx
    by_contra hx'
    exact hnone ⟨x, hx, by simpa using hx'⟩
  rw [hlog, show a ++ r :: (b ++ r' :: c) = (a ++ r :: b) ++ r' :: c by simp,
    separatedFrom_append] at h
  have hout := h.2.1 hr' (disjoint r' hr')
  rw [outstandingFrom_append, outstanding_of_raise hr (disjoint r hr) hb] at hout
  exact Bool.noConfusion hout

/-- Of two elements that split one list, the second stands after the first, is it, or stands
before it. -/
theorem mem_of_append_cons_eq {u v p s : List ε} {x q : ε} (h : u ++ x :: v = p ++ q :: s) :
    q ∈ v ∨ x = q ∨ x ∈ s := by
  rcases List.append_eq_append_iff.1 h with ⟨w, -, h2⟩ | ⟨w, -, h2⟩
  · cases w with
    | nil => exact Or.inr (Or.inl (List.cons.inj (by simpa using h2)).1)
    | cons z w =>
        have hv := (List.cons.inj (by simpa using h2)).2
        exact Or.inl (by simp [hv])
  · cases w with
    | nil => exact Or.inr (Or.inl (List.cons.inj (by simpa using h2)).1.symm)
    | cons z w =>
        have hs := (List.cons.inj (by simpa using h2)).2
        exact Or.inr (Or.inr (by simp [hs]))

/-- In a paired log, a raising event stands between any two clearing events. -/
theorem Paired.exists_raise_between (disjoint : ∀ e, isRaise e = true → isClear e = false)
    {log : List ε} (hp : Paired isRaise isClear log) {a b c : List ε} {x y : ε}
    (hlog : log = a ++ x :: (b ++ y :: c)) (hx : isClear x = true) (hy : isClear y = true) :
    ∃ q ∈ b, isRaise q = true := by
  obtain ⟨p, q, s, hpre, hq, hs⟩ := hp (a ++ x :: b) y c (by simp [hlog]) hy
  rcases mem_of_append_cons_eq hpre with h | h | h
  · exact ⟨q, h, hq⟩
  · exact absurd (disjoint q hq) (by simp [← h, hx])
  · exact absurd (hs x h) (by simp [hx])

/-- In a log that is paired and separated, exactly one clearing event stands between a
raising event and the next one. -/
theorem clear_unique (disjoint : ∀ e, isRaise e = true → isClear e = false) {log : List ε}
    (hp : Paired isRaise isClear log) (hs : Separated isRaise isClear log)
    {a b c : List ε} {r r' : ε} (hlog : log = a ++ r :: (b ++ r' :: c)) (hr : isRaise r = true)
    (hr' : isRaise r' = true) (next : ∀ x ∈ b, isRaise x = false) :
    (b.filter isClear).length = 1 := by
  obtain ⟨x, hx, hxc⟩ := hs a r b r' c hlog hr hr'
  obtain ⟨b₁, b₂, rfl⟩ := List.append_of_mem hx
  have hlast : ∀ y ∈ b₂, ¬isClear y = true := by
    intro y hy hyc
    obtain ⟨b₃, b₄, rfl⟩ := List.append_of_mem hy
    obtain ⟨q, hq, hqr⟩ := hp.exists_raise_between disjoint (a := a ++ r :: b₁) (b := b₃)
      (c := b₄ ++ r' :: c) (by simp [hlog]) hxc hyc
    simp [next q (by simp [hq])] at hqr
  have hfirst : ∀ y ∈ b₁, ¬isClear y = true := by
    intro y hy hyc
    obtain ⟨b₃, b₄, rfl⟩ := List.append_of_mem hy
    obtain ⟨q, hq, hqr⟩ := hp.exists_raise_between disjoint (a := a ++ r :: b₃) (b := b₄)
      (c := b₂ ++ r' :: c) (by simp [hlog]) hyc hxc
    simp [next q (by simp [hq])] at hqr
  rw [List.filter_append, List.filter_cons_of_pos hxc, List.filter_eq_nil_iff.2 hfirst,
    List.filter_eq_nil_iff.2 hlast]
  rfl

end Lss.Library.AlertLog
