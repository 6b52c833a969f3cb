import Mathlib.Data.List.Nodup

/-!
# Programs that ask questions

A program asks one question after the other and goes on by the answers. It can be run against
somebody who answers everything, or with a memory of the answers and a budget: a question asked
before is not asked again, and once the budget is spent every new question is refused.
-/

set_option autoImplicit false

namespace Lss.Library

variable {ι ο α β : Type}

/-- A program that asks questions and comes to a result. -/
inductive Query (ι ο α : Type) where
  | ret (value : α)
  | ask (question : ι) (next : ο → Query ι ο α)

namespace Query

def bind : Query ι ο α → (α → Query ι ο β) → Query ι ο β
  | ret value, k => k value
  | ask question next, k => ask question fun answer => (next answer).bind k

instance : Monad (Query ι ο) where
  pure := ret
  bind := bind

/-- The program of one question. -/
def once (question : ι) : Query ι ο ο := ask question ret

/-! ## Every question is answered -/

/-- The result where every question is answered. -/
def eval (server : ι → ο) : Query ι ο α → α
  | ret value => value
  | ask question next => (next (server question)).eval server

@[simp] theorem eval_pure (server : ι → ο) (value : α) :
    (pure value : Query ι ο α).eval server = value := rfl

@[simp] theorem eval_once (server : ι → ο) (question : ι) :
    (once question : Query ι ο ο).eval server = server question := rfl

@[simp] theorem eval_bind (server : ι → ο) (q : Query ι ο α) (k : α → Query ι ο β) :
    (q >>= k).eval server = (k (q.eval server)).eval server := by
  induction q with
  | ret value => rfl
  | ask question next ih => exact ih (server question)

theorem eval_ite (server : ι → ο) (c : Prop) [Decidable c] (p q : Query ι ο α) :
    (if c then p else q).eval server = if c then p.eval server else q.eval server := by
  split <;> rfl

/-! ## A memory and a budget -/

variable [DecidableEq ι]

/-- What the memory holds of a question. -/
def remembered (memory : List (ι × ο)) (question : ι) : Option ο :=
  (memory.find? fun entry => entry.1 = question).map Prod.snd

/-- The answer to a question and the memory behind it. -/
def answer (server : ι → ο) (budget : ℕ) (refused : ο) (memory : List (ι × ο)) (question : ι) :
    ο × List (ι × ο) :=
  match remembered memory question with
  | some known => (known, memory)
  | none =>
    if budget ≤ memory.length then (refused, memory)
    else (server question, memory ++ [(question, server question)])

/-- A run with a memory and a budget: the result, and the memory, which holds the questions that
were asked in their order. -/
def within (server : ι → ο) (budget : ℕ) (refused : ο) :
    Query ι ο α → List (ι × ο) → α × List (ι × ο)
  | ret value, memory => (value, memory)
  | ask question next, memory =>
    let r := answer server budget refused memory question
    (next r.1).within server budget refused r.2

variable {server : ι → ο} {budget : ℕ} {refused : ο}

@[simp] theorem within_pure (value : α) (memory : List (ι × ο)) :
    (pure value : Query ι ο α).within server budget refused memory = (value, memory) := rfl

@[simp] theorem within_once (question : ι) (memory : List (ι × ο)) :
    (once question : Query ι ο ο).within server budget refused memory =
      answer server budget refused memory question := rfl

@[simp] theorem within_bind (q : Query ι ο α) (k : α → Query ι ο β) (memory : List (ι × ο)) :
    (q >>= k).within server budget refused memory =
      (k (q.within server budget refused memory).1).within server budget refused
        (q.within server budget refused memory).2 := by
  induction q generalizing memory with
  | ret value => rfl
  | ask question next ih => exact ih _ _

/-- No question twice, and no more of them than the budget has. -/
structure Thrifty (budget : ℕ) (memory : List (ι × ο)) : Prop where
  once : (memory.map Prod.fst).Nodup
  few : memory.length ≤ budget

omit [DecidableEq ι] in
theorem thrifty_nil : Thrifty budget ([] : List (ι × ο)) :=
  ⟨List.nodup_nil, Nat.zero_le _⟩

theorem notMem_of_remembered {memory : List (ι × ο)} {question : ι}
    (h : remembered memory question = none) : question ∉ memory.map Prod.fst := by
  simp only [remembered, Option.map_eq_none_iff, List.find?_eq_none, decide_eq_true_eq] at h
  intro hmem
  obtain ⟨entry, hentry, rfl⟩ := List.mem_map.mp hmem
  exact h entry hentry rfl

theorem Thrifty.answer {memory : List (ι × ο)} (h : Thrifty budget memory) (question : ι) :
    Thrifty budget (answer server budget refused memory question).2 := by
  unfold Query.answer
  cases found : remembered memory question with
  | some known => exact h
  | none =>
      by_cases spent : budget ≤ memory.length
      · simpa only [if_pos spent] using h
      · simp only [if_neg spent]
        constructor
        · rw [List.map_append, List.nodup_append]
          refine ⟨h.once, List.nodup_singleton _, ?_⟩
          intro asked hasked new hnew
          obtain rfl := List.mem_singleton.mp hnew
          rintro rfl
          exact notMem_of_remembered found hasked
        · rw [List.length_append, List.length_singleton]
          omega

/-- A run never asks a question twice nor more questions than it may. -/
theorem Thrifty.within {memory : List (ι × ο)} (h : Thrifty budget memory) (q : Query ι ο α) :
    Thrifty budget (q.within server budget refused memory).2 := by
  induction q generalizing memory with
  | ret value => exact h
  | ask question next ih => exact ih _ (h.answer question)

/-- Once the budget is spent a run sees what the memory holds, and nothing else. -/
theorem within_of_spent {memory : List (ι × ο)} (spent : budget ≤ memory.length)
    (q : Query ι ο α) :
    q.within server budget refused memory =
      (q.eval fun question => (remembered memory question).getD refused, memory) := by
  induction q with
  | ret value => rfl
  | ask question next ih =>
      have hanswer : answer server budget refused memory question =
          ((remembered memory question).getD refused, memory) := by
        unfold answer
        cases remembered memory question with
        | some known => rfl
        | none => rw [if_pos spent]; rfl
      change (next _).within server budget refused _ = _
      rw [hanswer]
      exact ih _

end Query

end Lss.Library
