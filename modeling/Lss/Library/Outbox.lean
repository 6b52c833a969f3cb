import Mathlib.Data.List.Perm.Basic
import Mathlib.Data.List.Perm.Subperm
import Mathlib.Data.List.Infix

/-!
# Outboxes

Messages are accepted one at a time. Each of them is mailed, waits or has been dropped, and a
message is mailed or dropped only by taking it out of those that wait. The accounts say that
nothing is lost and nothing is there twice, and the order says that what was mailed and what still
waits came in that order. A mail may carry several messages, one text behind the other.
-/

set_option autoImplicit false

open scoped List

namespace Lss.Library.Outbox

variable {μ : Type} {accepted mailed waiting dropped rest : List μ} {x : μ}

/-! ## The accounts -/

/-- Each message that was accepted is at one place, as often as it was accepted. -/
def Accounts (accepted mailed waiting dropped : List μ) : Prop :=
  accepted.Perm (mailed ++ waiting ++ dropped)

theorem Accounts.nil : Accounts ([] : List μ) [] [] [] := List.Perm.refl _

/-- A message that is accepted and has to wait. -/
theorem Accounts.post (h : Accounts accepted mailed waiting dropped) (x : μ) :
    Accounts (accepted ++ [x]) mailed (waiting ++ [x]) dropped := by
  unfold Accounts at *
  calc
    accepted ++ [x] ~ mailed ++ waiting ++ dropped ++ [x] := h.append_right [x]
    _ = mailed ++ waiting ++ (dropped ++ [x]) := List.append_assoc _ _ _
    _ ~ mailed ++ waiting ++ ([x] ++ dropped) := List.perm_append_comm.append_left _
    _ = mailed ++ (waiting ++ [x]) ++ dropped := by simp only [List.append_assoc]

/-- Messages that waited and go out. -/
theorem Accounts.mail {xs : List μ} (h : Accounts accepted mailed waiting dropped)
    (taken : waiting.Perm (xs ++ rest)) : Accounts accepted (mailed ++ xs) rest dropped := by
  unfold Accounts at *
  calc
    accepted ~ mailed ++ waiting ++ dropped := h
    _ ~ mailed ++ (xs ++ rest) ++ dropped := (taken.append_left mailed).append_right dropped
    _ = mailed ++ xs ++ rest ++ dropped := by simp only [List.append_assoc]

/-- A message that waited and is given up. -/
theorem Accounts.drop (h : Accounts accepted mailed waiting dropped)
    (taken : waiting.Perm (x :: rest)) : Accounts accepted mailed rest (dropped ++ [x]) := by
  unfold Accounts at *
  calc
    accepted ~ mailed ++ waiting ++ dropped := h
    _ ~ mailed ++ (x :: rest) ++ dropped := (taken.append_left mailed).append_right dropped
    _ ~ mailed ++ (rest ++ [x]) ++ dropped :=
        ((List.perm_append_singleton x rest).symm.append_left mailed).append_right dropped
    _ ~ mailed ++ rest ++ (dropped ++ [x]) := by
        simp only [List.append_assoc]
        exact (List.perm_append_comm.append_left rest).append_left mailed

/-- The order in which messages wait does not matter to the accounts. -/
theorem Accounts.reorder (h : Accounts accepted mailed waiting dropped)
    (same : waiting.Perm rest) : Accounts accepted mailed rest dropped :=
  h.trans ((same.append_left mailed).append_right dropped)

/-- Nothing is lost. -/
theorem Accounts.mem (h : Accounts accepted mailed waiting dropped) (hx : x ∈ accepted) :
    x ∈ mailed ∨ x ∈ waiting ∨ x ∈ dropped := by
  have place := h.subset hx
  rw [List.append_assoc, List.mem_append, List.mem_append] at place
  exact place

/-- Nothing is mailed more often than it was accepted. -/
theorem Accounts.subperm (h : Accounts accepted mailed waiting dropped) :
    mailed.Subperm accepted := by
  have part : mailed.Sublist (mailed ++ waiting ++ dropped) :=
    (List.sublist_append_left mailed waiting).trans (List.sublist_append_left _ dropped)
  exact part.subperm.trans h.symm.subperm

/-! ## The order -/

/-- What was mailed, and behind it what waits, stands in the order of arrival. -/
def InOrder (accepted mailed waiting : List μ) : Prop := (mailed ++ waiting).Sublist accepted

theorem InOrder.post (h : InOrder accepted mailed waiting) (x : μ) :
    InOrder (accepted ++ [x]) mailed (waiting ++ [x]) := by
  unfold InOrder at *
  rw [← List.append_assoc]
  exact h.append (List.Sublist.refl [x])

theorem InOrder.mail {xs : List μ} (h : InOrder accepted mailed (xs ++ rest)) :
    InOrder accepted (mailed ++ xs) rest := by
  unfold InOrder at *
  rw [List.append_assoc]
  exact h

theorem InOrder.drop (h : InOrder accepted mailed (x :: rest)) :
    InOrder accepted mailed rest :=
  ((List.sublist_cons_self x rest).append_left mailed).trans h

theorem InOrder.sublist (h : InOrder accepted mailed waiting) : mailed.Sublist accepted :=
  (List.sublist_append_left _ _).trans h

/-! ## Mails that carry several messages -/

section Carries
variable {α : Type}

/-- The texts stand in the body one behind the other. -/
def Carries : List α → List (List α) → Prop
  | _, [] => True
  | body, text :: texts => ∃ before after, body = before ++ text ++ after ∧ Carries after texts

theorem Carries.append_right {body : List α} {texts : List (List α)} (h : Carries body texts)
    (after : List α) : Carries (body ++ after) texts := by
  induction texts generalizing body with
  | nil => trivial
  | cons text texts ih =>
      obtain ⟨before, rest, rfl, more⟩ := h
      exact ⟨before, rest ++ after, List.append_assoc _ _ _, ih more⟩

theorem Carries.append_left {body : List α} {texts : List (List α)} (h : Carries body texts)
    (before : List α) : Carries (before ++ body) texts := by
  cases texts with
  | nil => trivial
  | cons text texts =>
      obtain ⟨front, rest, rfl, more⟩ := h
      exact ⟨before ++ front, rest, by simp only [List.append_assoc], more⟩

theorem Carries.single {body text : List α} (h : text.IsInfix body) : Carries body [text] := by
  obtain ⟨before, after, rfl⟩ := h
  exact ⟨before, after, rfl, trivial⟩

theorem Carries.cons {body text : List α} {texts : List (List α)} (before : List α)
    (h : Carries body texts) : Carries (before ++ text ++ body) (text :: texts) :=
  ⟨before, body, rfl, h⟩

/-- Every text that is carried can be read in the body. -/
theorem Carries.isInfix {body text : List α} {texts : List (List α)} (h : Carries body texts)
    (mem : text ∈ texts) : text.IsInfix body := by
  induction texts generalizing body with
  | nil => cases mem
  | cons first texts ih =>
      obtain ⟨before, rest, rfl, more⟩ := h
      cases mem with
      | head => exact ⟨before, rest, rfl⟩
      | tail _ later => exact (ih more later).trans (List.suffix_append _ _).isInfix

end Carries

end Lss.Library.Outbox
