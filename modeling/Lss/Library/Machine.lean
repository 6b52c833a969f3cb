import Mathlib.Data.List.Induction

/-!
# Machines that emit events

A machine takes one input at a time, changes its state and emits a finite list of events.
The run of a machine over a list of inputs is the state it ends in and everything it
emitted, in order. The rules here are the ones a verification of such a machine rests on:
how runs compose, how an invariant of the state and the log is carried along a run, and how
the events of a run are traced back to the step that emitted them.
-/

set_option autoImplicit false

namespace Lss.Library.Machine

variable {σ ι ε : Type*}

/-- The run of a machine from a state over a list of inputs. -/
def run (step : σ → ι → σ × List ε) : σ → List ι → σ × List ε
  | s, [] => (s, [])
  | s, i :: is => ((run step (step s i).1 is).1, (step s i).2 ++ (run step (step s i).1 is).2)

variable (step : σ → ι → σ × List ε)

@[simp] theorem run_nil (s : σ) : run step s [] = (s, []) := rfl

@[simp] theorem run_cons (s : σ) (i : ι) (is : List ι) :
    run step s (i :: is) =
      ((run step (step s i).1 is).1, (step s i).2 ++ (run step (step s i).1 is).2) := rfl

/-- A run over two lists of inputs is the run over the second from where the first ends. -/
theorem run_append (s : σ) (is js : List ι) :
    run step s (is ++ js) =
      ((run step (run step s is).1 js).1, (run step s is).2 ++ (run step (run step s is).1 js).2) := by
  induction is generalizing s with
  | nil => simp
  | cons i is ih => simp [ih]

/-- The last step of a run. -/
theorem run_concat (s : σ) (is : List ι) (i : ι) :
    run step s (is ++ [i]) =
      ((step (run step s is).1 i).1, (run step s is).2 ++ (step (run step s is).1 i).2) := by
  simp [run_append]

/-- The invariant rule: what every step preserves of the inputs taken so far, the state and
the log holds after every run. -/
theorem run_induction {s : σ} (Inv : List ι → σ → List ε → Prop) (init : Inv [] s [])
    (preserved : ∀ is s log i, Inv is s log → Inv (is ++ [i]) (step s i).1 (log ++ (step s i).2))
    (is : List ι) : Inv is (run step s is).1 (run step s is).2 := by
  induction is using List.reverseRecOn with
  | nil => exact init
  | append_singleton is i ih =>
      rw [run_concat]
      exact preserved is _ _ i ih

/-- Every event of a run was emitted by one of its steps. -/
theorem mem_run {s : σ} {is : List ι} {e : ε} (h : e ∈ (run step s is).2) :
    ∃ pre i post, is = pre ++ i :: post ∧ e ∈ (step (run step s pre).1 i).2 := by
  induction is generalizing s with
  | nil => simp at h
  | cons i is ih =>
      rw [run_cons, List.mem_append] at h
      rcases h with h | h
      · exact ⟨[], i, is, rfl, h⟩
      · obtain ⟨pre, j, post, rfl, hj⟩ := ih h
        exact ⟨i :: pre, j, post, rfl, hj⟩

/-- What holds now and did not hold at first began to hold at some step, and has held ever since. -/
theorem run_since {s : σ} {P : σ → Prop} {is : List ι} (init : ¬P s)
    (now : P (run step s is).1) :
    ∃ pre i post, is = pre ++ i :: post ∧ ¬P (run step s pre).1 ∧
      ∀ part, part <+: post → P (run step s (pre ++ i :: part)).1 := by
  induction is using List.reverseRecOn with
  | nil => exact absurd now init
  | append_singleton is i ih =>
      by_cases held : P (run step s is).1
      · obtain ⟨pre, j, post, rfl, before, since⟩ := ih held
        refine ⟨pre, j, post ++ [i], by simp, before, ?_⟩
        intro part hpart
        rw [List.prefix_concat_iff] at hpart
        cases hpart with
        | inl whole =>
            rw [whole]
            simpa using now
        | inr earlier => exact since part earlier
      · refine ⟨is, i, [], rfl, held, ?_⟩
        intro part hpart
        rw [List.prefix_nil.mp hpart]
        exact now

/-- Inputs that can be left out: where a relation of states is kept by taking them on one side only,
and by taking the others on both sides, and where what can be seen of them is nothing and of the
others the same, a run without them ends in a related state and shows the same. -/
theorem run_erase (keep : ι → Bool) (see : ε → Bool) {R : σ → σ → Prop}
    (erased : ∀ s t i, keep i = false → R s t → R (step s i).1 t ∧ (step s i).2.filter see = [])
    (kept : ∀ s t i, keep i = true → R s t →
      R (step s i).1 (step t i).1 ∧ (step s i).2.filter see = (step t i).2.filter see)
    {s t : σ} (related : R s t) (is : List ι) :
    R (run step s is).1 (run step t (is.filter keep)).1 ∧
      (run step s is).2.filter see = (run step t (is.filter keep)).2.filter see := by
  induction is generalizing s t with
  | nil => exact ⟨related, rfl⟩
  | cons i is ih =>
      cases hi : keep i with
      | false =>
          obtain ⟨still, nothing⟩ := erased s t i hi related
          obtain ⟨ends, shown⟩ := ih still
          rw [List.filter_cons_of_neg (by simp [hi])]
          exact ⟨ends, by rw [run_cons, List.filter_append, nothing, List.nil_append, shown]⟩
      | true =>
          obtain ⟨still, same⟩ := kept s t i hi related
          obtain ⟨ends, shown⟩ := ih still
          rw [List.filter_cons_of_pos hi]
          refine ⟨ends, ?_⟩
          rw [run_cons, run_cons, List.filter_append, List.filter_append, same, shown]

end Lss.Library.Machine
