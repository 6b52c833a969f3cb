import Mathlib.Logic.Function.Iterate
import Mathlib.Data.List.Range

/-!
# Loops

A loop takes steps until it stands in a state it stops in. What it passes through is a list of
states, the one it stops in last. A loop need not stop, so it is run for a number of rounds.
-/

set_option autoImplicit false

namespace Lss.Library.Loop

variable {σ : Type*} (stop : σ → Prop) [DecidablePred stop] (step : σ → σ)

/-- The states a loop passes through, or none while it has not stopped. -/
def path : ℕ → σ → Option (List σ)
  | 0, _ => none
  | rounds + 1, s => if stop s then some [s] else (path rounds (step s)).map (s :: ·)

/-- The states from one on, so many steps of them. -/
def states (s : σ) (n : ℕ) : List σ := (List.range (n + 1)).map fun k => step^[k] s

@[simp] theorem length_states (s : σ) (n : ℕ) : (states step s n).length = n + 1 := by
  simp [states]

theorem getElem?_states {s : σ} {n k : ℕ} (h : k ≤ n) :
    (states step s n)[k]? = some (step^[k] s) := by
  have hk : k < n + 1 := by omega
  rw [states, List.getElem?_map, List.getElem?_range hk, Option.map_some]

theorem states_succ (s : σ) (n : ℕ) : states step s (n + 1) = s :: states step (step s) n := by
  unfold states
  rw [List.range_succ_eq_map, List.map_cons, List.map_map]
  rfl

/-- A loop that first stops after some steps passes through the states up to there, and needs
one round more than it takes steps. -/
theorem path_eq {s : σ} {n : ℕ} (running : ∀ k < n, ¬ stop (step^[k] s))
    (stops : stop (step^[n] s)) (rounds : ℕ) :
    path stop step rounds s = if n < rounds then some (states step s n) else none := by
  induction n generalizing s rounds with
  | zero =>
      cases rounds with
      | zero => simp [path]
      | succ rounds =>
          have here : stop s := stops
          simp [path, here, states]
  | succ n ih =>
      cases rounds with
      | zero => simp [path]
      | succ rounds =>
          have here : ¬ stop s := running 0 (by omega)
          have rest := ih (s := step s)
            (fun k hk => running (k + 1) (by omega)) stops rounds
          rw [path, if_neg here, rest, states_succ]
          by_cases more : n < rounds <;> simp [more]

/-- A loop that stopped stands at the end of what it passed through. -/
theorem of_path {rounds : ℕ} {s : σ} {trace : List σ} (h : path stop step rounds s = some trace) :
    ∃ n, trace = states step s n ∧ stop (step^[n] s) := by
  induction rounds generalizing s trace with
  | zero => simp [path] at h
  | succ rounds ih =>
      rw [path] at h
      by_cases here : stop s
      · rw [if_pos here, Option.some.injEq] at h
        exact ⟨0, by simp [← h, states], here⟩
      · rw [if_neg here, Option.map_eq_some_iff] at h
        obtain ⟨rest, hrest, rfl⟩ := h
        obtain ⟨n, rfl, stops⟩ := ih hrest
        exact ⟨n + 1, (states_succ step s n).symm, stops⟩

/-- What each step does to a state holds along the states. -/
theorem isChain_states {R : σ → σ → Prop} {s : σ} {n : ℕ}
    (h : ∀ k < n, R (step^[k] s) (step^[k + 1] s)) : (states step s n).IsChain R := by
  rw [List.isChain_iff_getElem]
  intro k hk
  rw [length_states] at hk
  simp only [states, List.getElem_map, List.getElem_range]
  exact h k (by omega)

end Lss.Library.Loop
