import Lss.Model.Rollup

/-!
# The names of a sample's points

The series of the latencies are written by another path than those of a sample, and the
energy of a step is read by name from the rollup. No other point of a sample has one of these
names: the fixed names are compared, and the names made of a user, an upstream or a GPU begin
with another letter.
-/

set_option autoImplicit false

namespace Lss.Analysis.PointNames

open Lss.Model

/-- The names that only one part of the collector may use: those of the series that only
exist per closed window, and that of the energy of a step. -/
def reserved : List String := "sum_energy_j" :: latencyNames

/-- Points whose names are all of a kind. -/
def Named (kind : String → Prop) (points : List (String × ℚ)) : Prop := ∀ p ∈ points, kind p.1

/-- Points with none of the reserved names. -/
def Plain (points : List (String × ℚ)) : Prop := Named (· ∉ reserved) points

section Named

variable {kind : String → Prop}

@[simp] theorem named_nil : Named kind [] := fun p hp => absurd hp (by simp)

@[simp] theorem named_cons {name : String} {v : ℚ} {ps : List (String × ℚ)} :
    Named kind ((name, v) :: ps) ↔ kind name ∧ Named kind ps := List.forall_mem_cons

@[simp] theorem named_append {ps qs : List (String × ℚ)} :
    Named kind (ps ++ qs) ↔ Named kind ps ∧ Named kind qs := List.forall_mem_append

theorem Named.ite {b : Prop} [Decidable b] {ps qs : List (String × ℚ)} (hp : Named kind ps)
    (hq : Named kind qs) : Named kind (if b then ps else qs) := by
  split
  · exact hp
  · exact hq

theorem named_pointIf {name : String} (h : kind name) (b : Bool) (v : ℚ) :
    Named kind (pointIf b name v) :=
  Named.ite (named_cons.2 ⟨h, named_nil⟩) named_nil

theorem Named.imp {other : String → Prop} {points : List (String × ℚ)} (h : Named kind points)
    (imp : ∀ name, kind name → other name) : Named other points := fun p hp => imp p.1 (h p hp)

end Named

/-- The names of the points before those of the step. -/
def headNames : List String :=
  ["serve_up", "decode_tok_s", "running", "running_public", "running_trusted", "queue",
    "queue_public", "queue_trusted", "busy_wait", "kv_usage", "cache_hit_rate",
    "spec_accept_length", "spec_accept_rate", "busy_slots", "kv_retracted"]

theorem headPoints_names (cur : Sample) : Named (· ∈ headNames) (headPoints cur) := by
  unfold headPoints
  refine named_cons.2 ⟨by decide, ?_⟩
  cases cur.metrics with
  | none => exact named_nil
  | some m =>
      simp only [Option.elim_some]
      unfold enginePoints
      simp only [named_append]
      refine ⟨⟨⟨⟨⟨⟨⟨?_, ?_⟩, ?_⟩, ?_⟩, ?_⟩, ?_⟩, ?_⟩, ?_⟩
      · exact named_pointIf (by decide) _ _
      · exact Named.ite (by simp only [named_cons, named_nil]; decide) named_nil
      · exact Named.ite (by simp only [named_cons, named_nil]; decide) named_nil
      · exact named_pointIf (by decide) _ _
      · exact named_pointIf (by decide) _ _
      · exact Named.ite (by simp only [named_cons, named_nil]; decide) named_nil
      · exact named_pointIf (by decide) _ _
      · exact named_cons.2 ⟨by decide, named_nil⟩

/-- The names of the points after those of the step, but for those of users and GPUs. -/
def tailNames : List String :=
  ["inflight_public", "inflight_trusted", "waiters_public", "waiters_trusted",
    "budget_used_frac", "gate_up", "gate_requests"]

/-- A name of a point after those of the step: a fixed one, or one that begins like those of
users and GPUs. -/
def TailName (name : String) : Prop :=
  name ∈ tailNames ∨ name.toList.head? = some 'u' ∨ name.toList.head? = some 'g'

theorem gpuPoints_names (g : GpuSample) : Named TailName (gpuPoints g) := by
  have hput : ∀ (what : String) (v : Option ℚ),
      Named TailName (v.toList.map fun v => ("gpu" ++ toString g.index ++ "_" ++ what, v)) := by
    intro what v p hp
    obtain ⟨x, -, rfl⟩ := List.mem_map.1 hp
    refine Or.inr (Or.inr ?_)
    rw [String.toList_append, String.toList_append, String.toList_append]
    rfl
  unfold gpuPoints
  dsimp only
  simp only [named_append]
  exact ⟨⟨⟨⟨⟨⟨⟨⟨⟨hput _ _, hput _ _⟩, hput _ _⟩, hput _ _⟩, hput _ _⟩, hput _ _⟩, hput _ _⟩,
    hput _ _⟩, hput _ _⟩, hput _ _⟩

theorem tailPoints_names (cur : Sample) : Named TailName (tailPoints cur) := by
  have fixed : ∀ name ∈ tailNames, TailName name := fun _ h => Or.inl h
  have huser : ∀ a b : String, a.toList.head? = some 'u' → TailName (a ++ b) := by
    intro a b ha
    refine Or.inr (Or.inl ?_)
    rw [String.toList_append, List.head?_append, ha]
    rfl
  unfold tailPoints
  simp only [named_append]
  refine ⟨⟨⟨⟨⟨⟨?_, ?_⟩, ?_⟩, ?_⟩, ?_⟩, ?_⟩, ?_⟩
  · cases cur.gate with
    | none => exact named_nil
    | some g =>
        simp only [Option.elim_some]
        unfold gatePoints
        rw [named_append]
        constructor
        · simp only [named_cons, named_nil, and_true]
          exact ⟨fixed _ (by decide), fixed _ (by decide), fixed _ (by decide),
            fixed _ (by decide)⟩
        · split
          · exact named_pointIf (fixed _ (by decide)) _ _
          · exact named_nil
  · exact named_cons.2 ⟨fixed _ (by decide), named_nil⟩
  · cases cur.gate with
    | none => exact named_nil
    | some g =>
        simp only [Option.elim_some]
        unfold usersPoints
        dsimp only
        rw [named_append]
        constructor
        · simp only [named_cons, named_nil, and_true]
          exact ⟨huser "users_active" "" rfl, huser "users_inflight" "" rfl⟩
        · intro p hp
          obtain ⟨up, -, hp⟩ := List.mem_flatMap.1 hp
          rcases List.mem_append.1 hp with hp | hp
          · rcases List.mem_pair.1 hp with rfl | rfl
            · exact huser _ _ rfl
            · exact huser _ _ rfl
          · split at hp
            · rcases List.mem_pair.1 hp with rfl | rfl
              · exact huser "users_active_here" "" rfl
              · exact huser "users_inflight_here" "" rfl
            · exact absurd hp (by simp)
  · intro p hp
    obtain ⟨u, -, hp⟩ := List.mem_flatMap.1 hp
    rcases List.mem_pair.1 hp with rfl | rfl
    · exact huser _ _ rfl
    · exact huser _ _ rfl
  · exact named_pointIf (fixed _ (by decide)) _ _
  · intro p hp
    obtain ⟨g, -, hp⟩ := List.mem_flatMap.1 hp
    exact gpuPoints_names g p hp
  · cases cur.watts with
    | none => exact named_nil
    | some w => exact named_cons.2 ⟨Or.inr (Or.inr rfl), named_nil⟩

/-- No reserved name is one of them. -/
theorem plain_headPoints (cur : Sample) : Plain (headPoints cur) := by
  have apart : ∀ name ∈ headNames, name ∉ reserved := by decide
  exact (headPoints_names cur).imp apart

theorem plain_tailPoints (cur : Sample) : Plain (tailPoints cur) := by
  have apart : ∀ name ∈ tailNames, name ∉ reserved := by decide
  have heads : ∀ name ∈ reserved, name.toList.head? ≠ some 'u' ∧ name.toList.head? ≠ some 'g' := by
    decide
  refine (tailPoints_names cur).imp ?_
  rintro name (fixed | user | gpu) hmem
  · exact apart name fixed hmem
  · exact (heads name hmem).1 user
  · exact (heads name hmem).2 gpu

/-- The points of two samples' counters, but for the energy. -/
theorem plain_counterPoints (p cur : Sample) (pm m : ServeMetrics) :
    ∃ points, Plain points ∧ counterPoints p cur pm m = points ++ energyPoints p cur m := by
  unfold counterPoints grownPoint
  refine ⟨_, ?_, rfl⟩
  unfold Plain
  simp only [named_append]
  refine ⟨⟨⟨⟨⟨⟨⟨?_, ?_⟩, ?_⟩, ?_⟩, ?_⟩, ?_⟩, ?_⟩, ?_⟩
  · exact Named.ite (named_append.2
      ⟨named_pointIf (by decide) _ _, named_pointIf (by decide) _ _⟩) named_nil
  · exact Named.ite (named_pointIf (by decide) _ _) named_nil
  · exact Named.ite (named_append.2
      ⟨named_pointIf (by decide) _ _, named_pointIf (by decide) _ _⟩) named_nil
  · exact Named.ite (named_pointIf (by decide) _ _) named_nil
  · exact Named.ite (named_cons.2 ⟨by decide, named_pointIf (by decide) _ _⟩) named_nil
  · exact named_pointIf (by decide) _ _
  · exact Named.ite (named_pointIf (by decide) _ _) named_nil
  · exact Named.ite (by simp only [named_cons, named_nil]; decide) named_nil

theorem not_latency_of_mem_stepPoints {p cur : Sample} {name : String} {v : ℚ}
    (h : (name, v) ∈ stepPoints p cur) : name ∉ latencyNames := by
  unfold stepPoints at h
  split at h
  · next pm m _ _ =>
      split at h
      · obtain ⟨points, hplain, heq⟩ := plain_counterPoints p cur pm m
        rw [heq] at h
        rcases List.mem_append.1 h with h | h
        · exact fun hmem => hplain _ h (List.mem_cons_of_mem _ hmem)
        · unfold energyPoints pointIf at h
          split at h
          · split at h
            · rcases List.mem_cons.1 h with h | h
              · rw [(Prod.mk.inj h).1]
                decide
              · split at h
                · rw [(Prod.mk.inj (List.mem_singleton.1 h)).1]
                  decide
                · exact absurd h (by simp)
            · exact absurd h (by simp)
          · exact absurd h (by simp)
      · exact absurd h (by simp)
  · exact absurd h (by simp)

/-- No point of a sample is of a series that only exists per closed window. -/
theorem not_latency_of_mem_samplePoints {prev : Option Sample} {cur : Sample} {name : String}
    {v : ℚ} (h : (name, v) ∈ samplePoints prev cur) : name ∉ latencyNames := by
  unfold samplePoints at h
  rcases List.mem_append.1 h with h | h
  · rcases List.mem_append.1 h with h | h
    · exact fun hmem => plain_headPoints cur _ h (List.mem_cons_of_mem _ hmem)
    · cases prev with
      | none => exact absurd h (by simp)
      | some p => exact not_latency_of_mem_stepPoints h
  · exact fun hmem => plain_tailPoints cur _ h (List.mem_cons_of_mem _ hmem)

end Lss.Analysis.PointNames
