import Mathlib.Data.List.Nodup
import Lss.Analysis.LockRaces
import Lss.Analysis.MaintenanceIncidents
import Lss.Model.BenchRuns

/-!
# What is left of a benchmark

In whatever order requests, runs, the poll loop, crashes and starts take their steps, a run is put
on record as over once and stays as it is then. Where no request is past its checks and no run is
going, nothing is left of any: no unfinished row, no flag, no lock of ours, no open window. That a
run is on record as cancelled means that somebody asked for it while it was going.
-/

set_option autoImplicit false

namespace Lss.Analysis.RunLedger

open Lss.Library Lss.Model Lss.Model.BenchRuns Lss.Analysis.LockRaces
open Lss.Analysis.MaintenanceIncidents

/-! ## The table of runs -/

section

variable {t : RunTable} {r : RunRow}

theorem mem_finish {id : ℤ} {card : RunCard} (h : r ∈ (t.finish id card).rows) :
    ∃ q ∈ t.rows, q.id = r.id ∧
      (q.id ≠ id ∧ r = q ∨ q.id = id ∧ r.status = card.status ∧ r.card = card) := by
  obtain ⟨q, hq, rfl⟩ := List.mem_map.mp h
  refine ⟨q, hq, ?_⟩
  by_cases here : q.id = id
  · rw [if_pos here]
    exact ⟨rfl, .inr ⟨here, rfl, rfl⟩⟩
  · rw [if_neg here]
    exact ⟨rfl, .inl ⟨here, rfl⟩⟩

theorem ids_finish (t : RunTable) (id : ℤ) (card : RunCard) :
    (t.finish id card).rows.map RunRow.id = t.rows.map RunRow.id := by
  unfold RunTable.finish
  rw [List.map_map]
  refine List.map_congr_left fun r _ => ?_
  dsimp only [Function.comp_apply]
  split <;> rfl

theorem ids_finishes (stale : List (ℤ × RunCard)) (t : RunTable) :
    ((stale.foldl (fun t s => t.finish s.1 s.2) t).rows.map RunRow.id) = t.rows.map RunRow.id ∧
      (stale.foldl (fun t s => t.finish s.1 s.2) t).nextId = t.nextId := by
  induction stale generalizing t with
  | nil => exact ⟨rfl, rfl⟩
  | cons s stale ih =>
      rw [List.foldl_cons]
      exact ⟨(ih _).1.trans (ids_finish t s.1 s.2), (ih _).2⟩

/-- What is written at the end of several runs is in their rows, and nowhere else. -/
theorem mem_finishes (stale : List (ℤ × RunCard))
    (h : r ∈ (stale.foldl (fun t s => t.finish s.1 s.2) t).rows) :
    (r.id ∉ stale.map Prod.fst ∧ r ∈ t.rows) ∨
      ∃ s ∈ stale, s.1 = r.id ∧ r.status = s.2.status ∧ r.card = s.2 := by
  induction stale generalizing t with
  | nil => exact .inl ⟨List.not_mem_nil, h⟩
  | cons s stale ih =>
      rw [List.foldl_cons] at h
      obtain ⟨away, hr⟩ | ⟨s', hs', now⟩ := ih h
      · obtain ⟨q, hq, same, ⟨other, rfl⟩ | ⟨own, status, card⟩⟩ := mem_finish hr
        · refine .inl ⟨?_, hq⟩
          rw [List.map_cons, List.mem_cons]
          rintro (first | later)
          · exact other first
          · exact away later
        · exact .inr ⟨s, List.mem_cons_self, own.symm.trans same, status, card⟩
      · exact .inr ⟨s', List.mem_cons_of_mem _ hs', now⟩

/-- After a start no row is unfinished, and the finished ones are as they were. -/
theorem mem_closeStale {now : ℤ} (h : r ∈ (t.closeStale now).rows) :
    r.status ≠ "running" ∧
      (r ∈ t.rows ∨ ∃ q ∈ t.rows, q.id = r.id ∧ q.status = "running" ∧
        r.card.aborted = some RunTable.staleText) := by
  unfold RunTable.closeStale at h
  obtain ⟨away, hr⟩ | ⟨s, hs, same, status, card⟩ := mem_finishes _ h
  · refine ⟨fun going => away ?_, .inl hr⟩
    simp only [List.map_map, List.mem_map, List.mem_filter]
    exact ⟨r, ⟨hr, by simpa using going⟩, rfl⟩
  · obtain ⟨q, hq, rfl⟩ := List.mem_map.mp hs
    obtain ⟨hq, going⟩ := List.mem_filter.mp hq
    refine ⟨by rw [status]; simp [RunTable.staleCard], .inr ⟨q, hq, same, by simpa using going, ?_⟩⟩
    rw [card]
    rfl

theorem mem_start {card : RunCard} (h : r ∈ (t.start card).rows) :
    r ∈ t.rows ∨ r.id = t.nextId ∧ r.status = "running" ∧ r.card = card := by
  cases List.mem_append.mp h with
  | inl old => exact .inl old
  | inr new =>
      rw [List.mem_singleton.mp new]
      exact .inr ⟨rfl, rfl, rfl⟩

/-- The rows of a table are in the order of their identifiers, and the next one is greater. -/
structure Sorted (t : RunTable) : Prop where
  order : (t.rows.map RunRow.id).Pairwise (· < ·)
  fresh : ∀ r ∈ t.rows, r.id < t.nextId

theorem sorted_of_ids {u : RunTable} (h : Sorted t)
    (ids : u.rows.map RunRow.id = t.rows.map RunRow.id) (next : u.nextId = t.nextId) :
    Sorted u where
  order := ids ▸ h.order
  fresh q hq := by
    have mem : q.id ∈ t.rows.map RunRow.id := ids ▸ List.mem_map_of_mem hq
    obtain ⟨r, hr, same⟩ := List.mem_map.mp mem
    rw [next, ← same]
    exact h.fresh r hr

theorem sorted_start (h : Sorted t) (card : RunCard) : Sorted (t.start card) where
  order := by
    unfold RunTable.start
    rw [List.map_append, List.pairwise_append]
    refine ⟨h.order, List.pairwise_singleton _ _, ?_⟩
    intro a ha b hb
    obtain ⟨q, hq, rfl⟩ := List.mem_map.mp ha
    rw [List.map_singleton, List.mem_singleton] at hb
    rw [hb]
    exact h.fresh q hq
  fresh q hq := by
    obtain old | ⟨new, -⟩ := mem_start hq
    · exact (h.fresh q old).trans (Int.lt_succ _)
    · rw [new]
      exact Int.lt_succ _

theorem sorted_prune (h : Sorted t) : Sorted t.prune where
  order := h.order.sublist (List.filter_sublist.map _)
  fresh q hq := h.fresh q (List.mem_of_mem_filter hq)

/-- A row is known by its identifier. -/
theorem Sorted.eq_of_id (h : Sorted t) {q : RunRow} (hr : r ∈ t.rows) (hq : q ∈ t.rows)
    (same : r.id = q.id) : r = q := by
  have nodup : (t.rows.map RunRow.id).Nodup := h.order.imp Int.ne_of_lt
  exact List.inj_on_of_nodup_map nodup hr hq same

end

/-! ## Runs -/

/-- The row of a run that is not on record as over. -/
def pending : RunStage → Option ℤ
  | .recorded c | .going c | .ended c => some c.runId
  | _ => none

/-- A thread has its flag up. -/
def Flagged : RunStage → Prop
  | .going _ | .ended _ | .stored _ | .released _ => True
  | _ => False

/-- A request or its thread has not given the lock back. -/
def Locked : RunStage → Prop
  | .released _ | .over => False
  | _ => True

variable {ι : Type}

/-- Where the request of a run stands with the lock. -/
def Placed (q : RunRequest) (s : Stage ι) : RunStage → Prop
  | .idle => s ≠ .running
  | .recorded _ => s = .locked ∧ q.unrecorded = none
  | _ => s = .running

/-- What holds of the rows and the runs, also while no collector runs. -/
structure Ledger (t : RunTable) (run : ι → RunStage) : Prop where
  sorted : Sorted t
  given : ∀ i id, pending (run i) = some id → id < t.nextId
  unfinished : ∀ i, ∀ r ∈ t.rows, pending (run i) = some r.id → r.status = "running"
  apart : ∀ i j id, pending (run i) = some id → pending (run j) = some id → i = j

/-- What holds while a collector runs. -/
structure Live (p : ℤ) (w : World ι) : Prop where
  /-- an unfinished row is that of a run -/
  owned : ∀ r ∈ w.table.rows, r.status = "running" → ∃ i, pending (w.run i) = some r.id
  placed : ∀ i, Placed (w.requests i) (w.lock.stage i) (w.run i)
  closed : ∀ i c, w.run i = .ended c → c.status ≠ "running"
  /-- a flag that is up is that of a run -/
  flag : (w.lock.active p).isSome = true → ∃ i, Flagged (w.run i)
  cancel : w.cancel = true → (w.lock.active p).isSome = true
  pids : ∀ i, (w.requests i).pid = p
  /-- the lock file is that of a request, or of somebody else who was there before -/
  creator : ∀ f, w.lock.file = some f → ∀ i, f.owner = .caller i →
    HasLock (w.lock.stage i) ∧ Locked (w.run i)
  foreign : ∀ f, w.lock.file = some f → f.owner = .before →
    0 < f.held.pid32 ∧ f.held.pid32 ≠ asI32 p
  window : (openOf .bench w.incidents).length = if w.wasActive then 1 else 0

/-- What holds at any time. -/
structure Kept (w : World ι) : Prop where
  ledger : Ledger w.table w.run
  live : ∀ p, w.pid = some p → Live p w

/-! ## Rows -/

section

variable {t : RunTable} {run : ι → RunStage}

theorem ledger_idle (h : Sorted t) : Ledger t fun _ : ι => .idle where
  sorted := h
  given i id hid := by cases hid
  unfinished i r _ hid := by cases hid
  apart i j id hid := by cases hid

variable [DecidableEq ι]

/-- A run goes on to a stage at which it has the same row. -/
theorem Ledger.goes_on (h : Ledger t run) {i : ι} {s : RunStage}
    (same : pending s = pending (run i)) : Ledger t (Function.update run i s) := by
  have all : ∀ j, pending (Function.update run i s j) = pending (run j) := by
    intro j
    rw [Function.update_apply]
    split
    case isTrue here => rw [here, same]
    case isFalse => rfl
  exact {
    sorted := h.sorted
    given := fun j id hid => h.given j id (all j ▸ hid)
    unfinished := fun j r hr hid => h.unfinished j r hr (all j ▸ hid)
    apart := fun j k id hj hk => h.apart j k id (all j ▸ hj) (all k ▸ hk) }

/-- A run is put on record. -/
theorem Ledger.starts (h : Ledger t run) {i : ι} (card : RunCard) :
    Ledger (t.start card)
      (Function.update run i (.recorded { card with runId := t.nextId })) := by
  have cases_of : ∀ j id, pending (Function.update run i
      (.recorded { card with runId := t.nextId }) j) = some id →
        j = i ∧ id = t.nextId ∨ pending (run j) = some id := by
    intro j id hid
    rw [Function.update_apply] at hid
    split at hid
    case isTrue here => exact .inl ⟨here, (Option.some.inj hid).symm⟩
    case isFalse => exact .inr hid
  exact {
    sorted := sorted_start h.sorted card
    given := by
      intro j id hid
      obtain ⟨-, rfl⟩ | old := cases_of j id hid
      · exact Int.lt_succ _
      · exact (h.given j id old).trans (Int.lt_succ _)
    unfinished := by
      intro j r hr hid
      obtain old | ⟨-, going, -⟩ := mem_start hr
      · obtain ⟨-, new⟩ | hid := cases_of j _ hid
        · exact absurd (h.sorted.fresh r old) (by omega)
        · exact h.unfinished j r old hid
      · exact going
    apart := by
      intro j k id hj hk
      obtain ⟨rfl, rfl⟩ | old := cases_of j id hj
      · obtain ⟨rfl, -⟩ | old := cases_of k _ hk
        · rfl
        · exact absurd (h.given k _ old) (Int.lt_irrefl _)
      · obtain ⟨rfl, rfl⟩ | old' := cases_of k id hk
        · exact absurd (h.given j _ old) (Int.lt_irrefl _)
        · exact h.apart j k id old old' }

/-- The end of a run is put on record. -/
theorem Ledger.finishes (h : Ledger t run) {i : ι} {c : RunCard} (here : pending (run i) = some c.runId)
    (card : RunCard) {s : RunStage} (none : pending s = none) :
    Ledger (t.finish c.runId card) (Function.update run i s) := by
  have others : ∀ j id, pending (Function.update run i s j) = some id →
      j ≠ i ∧ pending (run j) = some id := by
    intro j id hid
    rw [Function.update_apply] at hid
    split at hid
    case isTrue => rw [none] at hid; cases hid
    case isFalse there => exact ⟨there, hid⟩
  exact {
    sorted := sorted_of_ids h.sorted (ids_finish _ _ _) rfl
    given := fun j id hid => h.given j id (others j id hid).2
    unfinished := by
      intro j r hr hid
      obtain ⟨there, hid⟩ := others j _ hid
      obtain ⟨q, hq, same, ⟨-, rfl⟩ | ⟨own, -⟩⟩ := mem_finish hr
      · exact h.unfinished j r hq hid
      · exact absurd (h.apart j i _ hid (by rw [here, ← own, same])) there
    apart := fun j k id hj hk => h.apart j k id (others j id hj).2 (others k id hk).2 }

omit [DecidableEq ι] in
theorem Ledger.prunes (h : Ledger t run) : Ledger t.prune run where
  sorted := sorted_prune h.sorted
  given := h.given
  unfinished i r hr := h.unfinished i r (List.mem_of_mem_filter hr)
  apart := h.apart

end

/-! ## The lock -/

section

variable [DecidableEq ι]

/-- A step of the lock by a request that does not start a run. -/
structure LockMove (i : ι) (w v : BenchWorld ι) : Prop where
  active : v.active = w.active
  others : ∀ j, j ≠ i → v.stage j = w.stage j
  waits : v.stage i ≠ .running
  /-- a file is the request's own, or it was there and is not -/
  file : ∀ f, v.file = some f →
    f.owner = .caller i ∧ HasLock (v.stage i) ∨
      w.file = some f ∧ (f.owner = .caller i → ¬HasLock (w.stage i))

/-- The request goes to another stage, and the file stays or goes. -/
theorem lockMove_goto {w : BenchWorld ι} {i : ι} {s : Stage ι} (waits : s ≠ .running)
    (unlocked : ¬HasLock (w.stage i)) : LockMove i w (w.goto i s) where
  active := rfl
  others j there := by rw [goto_stage, if_neg there]
  waits := by rwa [goto_stage, if_pos rfl]
  file f hf := .inr ⟨hf, fun _ => unlocked⟩

theorem lockMove_remove {w : BenchWorld ι} {i : ι} {s : Stage ι} (waits : s ≠ .running) :
    LockMove i w ({ w with file := none }.goto i s) where
  active := rfl
  others j there := by rw [goto_stage, if_neg there]
  waits := by rwa [goto_stage, if_pos rfl]
  file f hf := by cases hf

theorem lockMove_benchStep {alive : ℤ → Bool} {callers : ι → BenchCaller} {w : BenchWorld ι} {i : ι}
    (idle : w.stage i ≠ .running)
    (unrecorded : ¬(w.stage i = .locked ∧ (callers i).unrecorded = none)) :
    LockMove i w (benchStep alive callers w i) := by
  unfold benchStep
  dsimp only
  cases hs : w.stage i with
  | check =>
      have unlocked : ¬HasLock (w.stage i) := by simp [hs, HasLock]
      dsimp only
      split
      · exact lockMove_goto (by simp) unlocked
      · split
        · exact lockMove_goto (by simp) unlocked
        · exact lockMove_goto (by simp) unlocked
  | create attempt =>
      have unlocked : ¬HasLock (w.stage i) := by simp [hs, HasLock]
      dsimp only
      split
      · exact lockMove_goto (by simp) unlocked
      split
      · exact lockMove_goto (by simp) unlocked
      split
      · exact {
          active := rfl
          others := fun j there => by rw [goto_stage, if_neg there]
          waits := by simp [goto_stage]
          file := fun f hf => by
            rw [goto_file, Option.some.injEq] at hf
            exact .inl ⟨hf ▸ rfl, by simp [goto_stage, HasLock]⟩ }
      · exact lockMove_goto (by simp) unlocked
  | write =>
      exact {
        active := rfl
        others := fun j there => by rw [goto_stage, if_neg there]
        waits := by simp [goto_stage]
        file := fun f hf => by
          obtain ⟨g, hg, rfl⟩ := Option.map_eq_some_iff.mp hf
          by_cases own : g.owner = .caller i
          · rw [if_pos own]
            exact .inl ⟨own, by simp [goto_stage, HasLock]⟩
          · rw [if_neg own]
            exact .inr ⟨hg, fun h => absurd h own⟩ }
  | read attempt => exact lockMove_goto (by simp) (by simp [hs, HasLock])
  | test attempt held seen =>
      have unlocked : ¬HasLock (w.stage i) := by simp [hs, HasLock]
      dsimp only
      split
      · exact lockMove_goto (by simp) unlocked
      · exact lockMove_goto (by simp) unlocked
  | remove attempt seen => exact lockMove_remove (by simp)
  | locked =>
      dsimp only
      split
      · exact lockMove_remove (by simp)
      case h_2 none => exact absurd ⟨hs, none⟩ unrecorded
  | running => exact absurd hs idle
  | refused message =>
      exact {
        active := rfl
        others := fun _ _ => rfl
        waits := by simp [hs]
        file := fun f hf => .inr ⟨hf, by simp [hs, HasLock]⟩ }

variable {p : ℤ} {w : World ι}

/-- A request without a run takes a step of the lock. -/
theorem Live.locks (h : Live p w) {i : ι} {v : BenchWorld ι} (idle : w.run i = .idle)
    (move : LockMove i w.lock v) : Live p { w with lock := v } :=
  { h with
    placed := by
      intro j
      by_cases here : j = i
      · subst here
        dsimp only
        rw [idle]
        exact move.waits
      · dsimp only
        rw [move.others j here]
        exact h.placed j
    flag := by
      dsimp only
      rw [move.active]
      exact h.flag
    cancel := by
      dsimp only
      rw [move.active]
      exact h.cancel
    creator := by
      intro f hf j hj
      obtain ⟨own, has⟩ | ⟨old, unlocked⟩ := move.file f hf
      · rw [own, Owner.caller.injEq] at hj
        subst hj
        exact ⟨has, by simp [idle, Locked]⟩
      · obtain ⟨has, locked⟩ := h.creator f old j hj
        by_cases here : j = i
        · subst here
          exact absurd has (unlocked hj)
        · exact ⟨by rwa [move.others j here], locked⟩
    foreign := by
      intro f hf before
      obtain ⟨own, -⟩ | ⟨old, -⟩ := move.file f hf
      · rw [own] at before
        cases before
      · exact h.foreign f old before }

/-- What holds of every run holds still where one has moved. -/
theorem forall_moved {run : ι → RunStage} {i : ι} {s : RunStage} {P : ι → RunStage → Prop}
    (moved : P i s) (others : ∀ j, P j (run j)) (j : ι) : P j (Function.update run i s j) :=
  (Function.forall_update_iff run P).mpr ⟨moved, fun j _ => others j⟩ j

/-- A run that was at one of some stages is there still where its move does not leave them. -/
theorem still_at {run : ι → RunStage} {i : ι} {s : RunStage} {P : RunStage → Prop}
    (stays : P (run i) → P s) {j : ι} (hj : P (run j)) : P (Function.update run i s j) :=
  forall_moved (P := fun j s => P (run j) → P s) stays (fun _ => id) j hj

/-- A run goes on to another stage, and the rows may change with it. -/
theorem Live.moves (h : Live p w) {i : ι} {s : RunStage} {t : RunTable}
    (owned : ∀ r ∈ t.rows, r.status = "running" →
      ∃ j, pending (Function.update w.run i s j) = some r.id)
    (flag : (w.lock.active p).isSome = true → Flagged (w.run i) → Flagged s)
    (lock : ∀ f, w.lock.file = some f → Locked (w.run i) → Locked s)
    (placed : Placed (w.requests i) (w.lock.stage i) s)
    (closed : ∀ c, s = .ended c → c.status ≠ "running") :
    Live p { w with table := t, run := Function.update w.run i s } :=
  { h with
    owned := owned
    placed := forall_moved (P := fun j => Placed (w.requests j) (w.lock.stage j)) placed h.placed
    closed := forall_moved (P := fun _ s => ∀ c, s = .ended c → c.status ≠ "running") closed h.closed
    flag := by
      intro up
      obtain ⟨j, hj⟩ := h.flag up
      exact ⟨j, still_at (flag up) hj⟩
    creator := by
      intro f hf j hj
      obtain ⟨has, locked⟩ := h.creator f hf j hj
      exact ⟨has, still_at (lock f hf) locked⟩ }

/-- An unfinished row whose run is another one than the one that moves. -/
theorem Live.owned_apart (h : Live p w) {i : ι} {s : RunStage} {r : RunRow}
    (hr : r ∈ w.table.rows) (going : r.status = "running") (apart : pending (w.run i) ≠ some r.id) :
    ∃ j, pending (Function.update w.run i s j) = some r.id := by
  obtain ⟨j, hj⟩ := h.owned r hr going
  refine ⟨j, ?_⟩
  rw [Function.update_of_ne]
  · exact hj
  · rintro rfl
    exact apart hj

/-- A request that has the lock puts its run on record. -/
theorem Live.records (h : Live p w) {i : ι} (idle : w.run i = .idle)
    (locked : w.lock.stage i = .locked) (recordable : (w.requests i).unrecorded = none)
    (card : RunCard) :
    Live p { w with
      table := w.table.start card
      run := Function.update w.run i (.recorded { card with runId := w.table.nextId }) } := by
  refine h.moves ?_ (by simp [idle, Flagged]) (fun _ _ _ => trivial) ⟨locked, recordable⟩ (by simp)
  intro r hr going
  obtain old | ⟨new, -⟩ := mem_start hr
  · exact h.owned_apart old going (by simp [idle, pending])
  · refine ⟨i, ?_⟩
    rw [Function.update_self, new]
    rfl

theorem benchStep_start {alive : ℤ → Bool} {callers : ι → BenchCaller} {v : BenchWorld ι} {i : ι}
    (locked : v.stage i = .locked) (recordable : (callers i).unrecorded = none) :
    benchStep alive callers v i =
      { v with
        active := Function.update v.active (callers i).pid (some (callers i).profile) }.goto i
          .running := by
  unfold benchStep
  rw [locked]
  dsimp only
  rw [recordable]

/-- A run is over, and the thread has not said so yet. -/
theorem Live.ends (h : Live p w) {i : ι} {c d : RunCard} (going : w.run i = .going c)
    (same : d.runId = c.runId) (closed : d.status ≠ "running") :
    Live p { w with run := Function.update w.run i (.ended d) } := by
  refine h.moves ?_ (fun _ _ => trivial) (fun _ _ _ => trivial) ?_ ?_
  · intro r hr running
    obtain ⟨j, hj⟩ := h.owned r hr running
    refine ⟨j, still_at (P := fun s => pending s = some r.id) ?_ hj⟩
    rw [going]
    exact (congrArg some same).trans
  · have placed := h.placed i
    rw [going] at placed
    exact placed
  · rintro _ ⟨⟩
    exact closed

/-- The end of a run is put on record. -/
theorem Live.stores (h : Live p w) {i : ι} {c : RunCard} (ended : w.run i = .ended c) :
    Live p { w with
      table := w.table.finish c.runId c
      run := Function.update w.run i (.stored c) } := by
  refine h.moves ?_ (fun _ _ => trivial) (fun _ _ _ => trivial) ?_ (by simp)
  · intro r hr running
    obtain ⟨q, hq, same, ⟨other, rfl⟩ | ⟨-, status, -⟩⟩ := mem_finish hr
    · refine h.owned_apart hq running ?_
      rw [ended]
      exact fun own => other (Option.some.inj own).symm
    · exact absurd (status.symm.trans running) (h.closed i c ended)
  · have placed := h.placed i
    rw [ended] at placed
    exact placed

/-- The lock is given back. -/
theorem Live.releases (h : Live p w) {i : ι} {c : RunCard} (stored : w.run i = .stored c) :
    Live p { w with
      lock := { w.lock with file := none }
      run := Function.update w.run i (.released c) } := by
  have unlocked : Live p { w with lock := { w.lock with file := none } } :=
    { h with
      creator := by rintro _ ⟨⟩
      foreign := by rintro _ ⟨⟩ }
  refine unlocked.moves ?_ (fun _ _ => trivial) (by rintro _ ⟨⟩) ?_ (by simp)
  · intro r hr running
    exact h.owned_apart hr running (by simp [stored, pending])
  · have placed := h.placed i
    rw [stored] at placed
    exact placed

/-- The flag is taken down. -/
theorem Live.lowers (h : Live p w) {i : ι} {c : RunCard} (released : w.run i = .released c) :
    Live p { w with
      lock := { w.lock with active := Function.update w.lock.active p none }
      run := Function.update w.run i .over
      cancel := false } := by
  have lowered : Live p { w with
      lock := { w.lock with active := Function.update w.lock.active p none }
      cancel := false } :=
    { h with
      flag := by simp
      cancel := by simp }
  refine lowered.moves ?_ (by simp) ?_ ?_ (by simp)
  · intro r hr running
    exact h.owned_apart hr running (by simp [released, pending])
  · intro f hf locked
    dsimp only at locked
    rw [released] at locked
    exact locked.elim
  · have placed := h.placed i
    rw [released] at placed
    exact placed

/-- The flag is raised. -/
theorem Live.raises (h : Live p w) {i : ι} {c : RunCard} (recorded : w.run i = .recorded c)
    (alive : ℤ → Bool) :
    Live p { w with
      lock := benchStep alive (fun i => (w.requests i).toBenchCaller) w.lock i
      run := Function.update w.run i (.going c)
      cancel := false } := by
  have placed := h.placed i
  rw [recorded] at placed
  obtain ⟨locked, recordable⟩ := placed
  rw [benchStep_start locked recordable]
  exact { h with
    owned := by
      intro r hr running
      obtain ⟨j, hj⟩ := h.owned r hr running
      refine ⟨j, still_at (P := fun s => pending s = some r.id) ?_ hj⟩
      rw [recorded]
      exact id
    placed := by
      intro j
      dsimp only
      by_cases here : j = i
      · subst here
        rw [Function.update_self, goto_stage, if_pos rfl]
        rfl
      · rw [Function.update_of_ne here, goto_stage, if_neg here]
        exact h.placed j
    closed := forall_moved (P := fun _ s => ∀ c, s = .ended c → c.status ≠ "running")
      (by simp) h.closed
    flag := fun _ => ⟨i, by simp [Flagged]⟩
    cancel := by simp
    creator := by
      intro f hf j hj
      obtain ⟨has, locked'⟩ := h.creator f hf j hj
      dsimp only
      by_cases here : j = i
      · subst here
        rw [Function.update_self, goto_stage, if_pos rfl]
        exact ⟨.inr (.inr rfl), trivial⟩
      · rw [Function.update_of_ne here, goto_stage, if_neg here]
        exact ⟨has, locked'⟩
    foreign := h.foreign }

end

/-! ## Starts and polls -/

section

variable {p : ℤ} {w : World ι}

theorem recoverFile_foreign {alive : ℤ → Bool} {file : Option (LockFile ι)} {f : LockFile ι}
    (h : recoverFile alive p file = some f) :
    f.owner = .before ∧ 0 < f.held.pid32 ∧ f.held.pid32 ≠ asI32 p := by
  obtain ⟨g, -, hg⟩ := Option.bind_eq_some_iff.mp h
  split at hg
  · cases hg
  case isFalse stays =>
    cases hg
    rw [Bool.or_eq_true, not_or] at stays
    refine ⟨rfl, ?_, by simpa using stays.2⟩
    have alive := stays.1
    unfold pidAlive at alive
    split at alive
    · simp at alive
    · dsimp only
      omega

theorem live_launch (w : World ι) (p : ℤ) (alive : ℤ → Bool) (now : ℤ)
    (requests : ι → RunRequest) : Live p (launch w p alive now requests) where
  owned r hr going := absurd going (mem_closeStale hr).1
  placed i := by simp [launch, Placed]
  closed i c hc := by cases hc
  flag up := by cases up
  cancel up := by cases up
  pids i := rfl
  creator f hf i hi := by
    rw [(recoverFile_foreign hf).1] at hi
    cases hi
  foreign f hf _ := (recoverFile_foreign hf).2
  window := openOf_closeIncident _ _ _ _

theorem Live.polls (h : Live p w) (now : ℤ) : Live p (pollStep w now) :=
  { h with
    window := by
      unfold pollStep
      dsimp only
      rw [openOf_bookWindow, h.window]
      cases w.active <;> cases w.wasActive <;> rfl }

theorem Live.prunes (h : Live p w) : Live p { w with table := w.table.prune } :=
  { h with owned := fun r hr => h.owned r (List.mem_of_mem_filter hr) }

theorem sorted_closeStale {t : RunTable} (h : Sorted t) (now : ℤ) : Sorted (t.closeStale now) :=
  sorted_of_ids h (ids_finishes _ _).1 (ids_finishes _ _).2

theorem kept_launch (h : Kept w) (p : ℤ) (alive : ℤ → Bool) (now : ℤ) (requests : ι → RunRequest) :
    Kept (launch w p alive now requests) where
  ledger := ledger_idle (sorted_closeStale h.ledger.sorted now)
  live q hq := by
    cases hq
    exact live_launch w p alive now requests

/-! ## Steps -/

variable [DecidableEq ι]

theorem kept_lockStep (h : Kept w) {i : ι} (idle : w.run i = .idle) (alive : ℤ → Bool) :
    Kept (lockStep w alive i).1 := by
  unfold lockStep
  dsimp only
  split
  case isTrue ready =>
    exact {
      ledger := h.ledger.starts _
      live := fun p hp => (h.live p hp).records idle ready.1 ready.2 _ }
  case isFalse other =>
    refine ⟨h.ledger, fun p hp => ?_⟩
    have placed := (h.live p hp).placed i
    rw [idle] at placed
    exact (h.live p hp).locks idle (lockMove_benchStep placed other)

theorem kept_raiseFlag (h : Kept w) {i : ι} {c : RunCard} (recorded : w.run i = .recorded c)
    (alive : ℤ → Bool) : Kept (raiseFlag w alive i c).1 where
  ledger := h.ledger.goes_on (by rw [recorded]; rfl)
  live p hp := { (h.live p hp).raises recorded alive with }

theorem kept_requestStep (h : Kept w) (alive : ℤ → Bool) (i : ι) :
    Kept (requestStep w alive i).1 := by
  unfold requestStep
  split
  case h_1 idle => exact kept_lockStep h idle alive
  case h_2 c recorded => exact kept_raiseFlag h recorded alive
  case h_3 => exact h

omit [DecidableEq ι] in
theorem active_of_pid {p : ℤ} (hp : w.pid = some p) :
    w.active = (w.lock.active p).isSome := by
  simp [World.active, hp]

omit [DecidableEq ι] in
theorem kept_cancelStep (h : Kept w) : Kept (cancelStep w).1 := by
  unfold cancelStep
  split
  case isTrue up =>
    refine ⟨h.ledger, fun p hp => ?_⟩
    rw [active_of_pid (w := w) hp] at up
    exact { h.live p hp with cancel := fun _ => up }
  case isFalse => exact h

omit [DecidableEq ι] in
theorem kept_nameStep (h : Kept w) (i : ι) (name : String) (index : ℕ) :
    Kept (nameStep w i name index) := by
  unfold nameStep
  split
  · exact ⟨h.ledger, fun p hp => { h.live p hp with }⟩
  · exact h

theorem verdict_over (l : Leavings) (profile : String) (stop : StepEnd) :
    (l.verdict profile stop).1 ≠ "running" := by
  cases stop with
  | done => cases hf : l.fault profile <;> simp [Leavings.verdict, hf]
  | aborted why => simp [Leavings.verdict]
  | timeout => simp [Leavings.verdict]
  | failed why => simp [Leavings.verdict]

theorem kept_endRun (h : Kept w) (i : ι) (l : Leavings) (stop : StepEnd) (now : ℤ) :
    Kept (endRun w i l stop now) := by
  unfold endRun
  split
  case h_1 c going =>
    exact {
      ledger := h.ledger.goes_on (by rw [going]; rfl)
      live := fun p hp => (h.live p hp).ends going rfl (verdict_over l c.profile stop) }
  case h_2 => exact h

theorem kept_finishStep (h : Kept w) (i : ι) : Kept (finishStep w i) := by
  unfold finishStep
  split
  case h_1 c ended =>
    exact {
      ledger := h.ledger.finishes (by rw [ended]; rfl) c rfl
      live := fun p hp => (h.live p hp).stores ended }
  case h_2 c stored =>
    exact {
      ledger := h.ledger.goes_on (by rw [stored]; rfl)
      live := fun p hp => (h.live p hp).releases stored }
  case h_3 c released =>
    refine ⟨h.ledger.goes_on (by rw [released]; rfl), fun p hp => ?_⟩
    dsimp only at hp ⊢
    rw [hp]
    exact { (h.live p hp).lowers released with }
  case h_4 => exact h

theorem kept_step (h : Kept w) (v : Event ι) : Kept (step w v).1 := by
  unfold step
  split
  · exact kept_launch h _ _ _ _
  · exact ⟨h.ledger, by rintro _ ⟨⟩⟩
  · exact kept_requestStep h _ _
  · exact kept_cancelStep h
  · exact kept_nameStep h _ _ _
  · cases stop : mustStop w.cancel _ _ _ with
    | none => exact h
    | some stop => exact kept_endRun h _ _ _ _
  · exact kept_endRun h _ _ _ _
  · exact kept_finishStep h _
  · exact ⟨h.ledger, fun p hp => (h.live p hp).polls _⟩
  · exact ⟨h.ledger.prunes, fun p hp => (h.live p hp).prunes⟩
  · exact h

omit [DecidableEq ι] in
theorem kept_start (file : Option Held) : Kept (start file : World ι) where
  ledger := ledger_idle { order := List.Pairwise.nil, fresh := by simp [start] }
  live := by rintro _ ⟨⟩

theorem kept_run (file : Option Held) (events : List (Event ι)) :
    Kept (Machine.run step (start file) events).1 :=
  Machine.run_induction step (fun _ w _ => Kept w) (kept_start file)
    (fun _ _ _ v h => kept_step h v) events

end

/-! ## Rows stay as they are -/

section

variable {w : World ι}

/-- Where the rows after a step come from: they were there as they are, they were unfinished, or they
are new. -/
def Derived (w v : World ι) : Prop :=
  w.table.nextId ≤ v.table.nextId ∧
    ∀ r ∈ v.table.rows, r ∈ w.table.rows ∨ r.id = w.table.nextId ∨
      ∃ q ∈ w.table.rows, q.id = r.id ∧ q.status = "running"

theorem derived_of_table {v : World ι} (same : v.table = w.table) : Derived w v := by
  unfold Derived
  rw [same]
  exact ⟨le_refl _, fun r hr => .inl hr⟩

theorem derived_launch (w : World ι) (p : ℤ) (alive : ℤ → Bool) (now : ℤ)
    (requests : ι → RunRequest) : Derived w (launch w p alive now requests) := by
  refine ⟨(ids_finishes _ _).2.ge, fun r hr => ?_⟩
  obtain old | ⟨q, hq, same, going, -⟩ := (mem_closeStale hr).2
  · exact .inl old
  · exact .inr (.inr ⟨q, hq, same, going⟩)

theorem derived_prune (w : World ι) : Derived w { w with table := w.table.prune } :=
  ⟨le_refl _, fun _ hr => .inl (List.mem_of_mem_filter hr)⟩

variable [DecidableEq ι]

theorem derived_requestStep (w : World ι) (alive : ℤ → Bool) (i : ι) :
    Derived w (requestStep w alive i).1 := by
  unfold requestStep
  split
  · unfold lockStep
    dsimp only
    split
    · refine ⟨by simp [RunTable.start], fun r hr => ?_⟩
      obtain old | ⟨new, -⟩ := mem_start hr
      · exact .inl old
      · exact .inr (.inl new)
    · exact derived_of_table rfl
  · exact derived_of_table rfl
  · exact derived_of_table rfl

theorem derived_endRun (w : World ι) (i : ι) (l : Leavings) (stop : StepEnd) (now : ℤ) :
    Derived w (endRun w i l stop now) := by
  unfold endRun
  split <;> exact derived_of_table rfl

theorem derived_finishStep (h : Kept w) (i : ι) : Derived w (finishStep w i) := by
  unfold finishStep
  split
  case h_1 c ended =>
    refine ⟨le_refl _, fun r hr => ?_⟩
    obtain ⟨q, hq, same, ⟨-, rfl⟩ | ⟨own, -⟩⟩ := mem_finish hr
    · exact .inl hq
    · refine .inr (.inr ⟨q, hq, same, h.ledger.unfinished i q hq ?_⟩)
      rw [ended, own]
      rfl
  case h_2 => exact derived_of_table rfl
  case h_3 => exact derived_of_table rfl
  case h_4 => exact derived_of_table rfl

theorem derived_step (h : Kept w) (v : Event ι) : Derived w (step w v).1 := by
  unfold step
  split
  · exact derived_launch w _ _ _ _
  · exact derived_of_table rfl
  · exact derived_requestStep w _ _
  · unfold cancelStep
    split <;> exact derived_of_table rfl
  · unfold nameStep
    split <;> exact derived_of_table rfl
  · cases stop : mustStop w.cancel _ _ _ with
    | none => exact derived_of_table rfl
    | some stop => exact derived_endRun w _ _ _ _
  · exact derived_endRun w _ _ _ _
  · exact derived_finishStep h _
  · exact derived_of_table rfl
  · exact derived_prune w
  · exact derived_of_table rfl

/-- The row of an identifier is gone, or it is what it was. -/
def Settled (r : RunRow) (w : World ι) : Prop :=
  r.id < w.table.nextId ∧ r.status ≠ "running" ∧ ∀ q ∈ w.table.rows, q.id = r.id → q = r

theorem settled_step (h : Kept w) {r : RunRow} (settled : Settled r w) (v : Event ι) :
    Settled r (step w v).1 := by
  obtain ⟨fresh, closed, only⟩ := settled
  obtain ⟨next, rows⟩ := derived_step h v
  refine ⟨fresh.trans_le next, closed, fun q hq same => ?_⟩
  obtain old | new | ⟨q', hq', same', going⟩ := rows q hq
  · exact only q old same
  · omega
  · rw [only q' hq' (same'.trans same)] at going
    exact absurd going closed

/-- A row that is on record as over stays as it is, in whatever order requests, runs, crashes and
starts of the collector go on, until it is one of more than five hundred. -/
theorem over_once (file : Option Held) (events later : List (Event ι)) (r : RunRow)
    (recorded : r ∈ (Machine.run step (start file) events).1.table.rows)
    (closed : r.status ≠ "running") :
    ∀ q ∈ (Machine.run step (start file) (events ++ later)).1.table.rows, q.id = r.id → q = r := by
  have kept := kept_run file events
  have settled : Settled r (Machine.run step (start file) events).1 :=
    ⟨kept.ledger.sorted.fresh r recorded, closed,
      fun q hq same => kept.ledger.sorted.eq_of_id hq recorded same⟩
  rw [Machine.run_append]
  have along := Machine.run_induction step (fun _ v _ => Kept v ∧ Settled r v) ⟨kept, settled⟩
    (fun _ v _ e h => ⟨kept_step h.1 e, settled_step h.1 h.2 e⟩) later
  exact along.2.2.2

end

/-- A quick run that is cancelled at once. -/
def cancelledRun : List (Event Unit) :=
  let request : RunRequest := { pid := 0, profile := "quick", now := 10, model := "m" }
  .launch 7 (fun _ => true) 5 (fun _ => request) ::
    List.replicate 5 (.request (fun _ => true) ()) ++
    [.cancel, .watch () false none {} 20, .finish (), .finish (), .finish ()]

/-- What is on record of it. -/
def cancelledRow : RunRow where
  id := 1
  loadoutId := ""
  profile := "quick"
  startedAt := 10
  endedAt := some 20
  status := "aborted"
  card :=
    { runId := 1
      loadoutId := ""
      model := "m"
      profile := "quick"
      startedAt := 10
      endedAt := 20
      durationS := 10
      status := "aborted"
      aborted := some cancelledText }

theorem cancelledRow_stays :
    let later : List (Event Unit) :=
      [.crash, .launch 8 (fun _ => false) 90 fun _ => { pid := 0, profile := "full", now := 95 }]
    ∀ q ∈ (Machine.run step (start none) (cancelledRun ++ later)).1.table.rows,
      q.id = 1 → q = cancelledRow :=
  over_once none cancelledRun _ cancelledRow (by decide) (by decide)

/-! ## Nothing is left -/

section

variable {p : ℤ} {w : World ι}

/-- A request is past its checks, and its run, if there is one, is not over. -/
def Busy (s : Stage ι) (r : RunStage) : Prop :=
  s = .write ∨ s = .locked ∨ r ≠ .idle ∧ r ≠ .over

instance [DecidableEq ι] (s : Stage ι) (r : RunStage) : Decidable (Busy s r) :=
  inferInstanceAs (Decidable (_ ∨ _ ∨ _))

theorem Live.busy_of_lock (h : Live p w) {i : ι} (has : HasLock (w.lock.stage i))
    (locked : Locked (w.run i)) : Busy (w.lock.stage i) (w.run i) := by
  obtain write | lock | running := has
  · exact .inl write
  · exact .inr (.inl lock)
  · refine .inr (.inr ⟨fun idle => ?_, fun closed => ?_⟩)
    · have placed := h.placed i
      rw [idle] at placed
      exact placed running
    · rw [closed] at locked
      exact locked

theorem busy_of_pending {s : Stage ι} {r : RunStage} {id : ℤ} (h : pending r = some id) :
    Busy s r := by
  refine .inr (.inr ⟨?_, ?_⟩) <;> rintro rfl <;> cases h

theorem busy_of_flagged {s : Stage ι} {r : RunStage} (h : Flagged r) : Busy s r := by
  refine .inr (.inr ⟨?_, ?_⟩) <;> rintro rfl <;> exact h

variable [DecidableEq ι]

end

section

/-- The card says that the run was cancelled. -/
def Cancelled (c : RunCard) : Prop := c.status = "aborted" ∧ c.aborted = some cancelledText

/-- Only a run that must stop because of the flag is on record as cancelled. -/
theorem mustStop_of_cancelled {cancel late underLoad : Bool} {foreign : Option String}
    {stop : StepEnd} {c : RunCard} {l : Leavings} {now : ℤ}
    (stops : mustStop cancel late underLoad foreign = some stop)
    (cancelled : Cancelled (c.ended l stop now)) : cancel = true := by
  obtain ⟨status, why⟩ := cancelled
  unfold mustStop at stops
  split at stops
  case isTrue asked => exact asked
  split at stops
  · cases stops
    exact absurd status (by simp [RunCard.ended, Leavings.verdict])
  split at stops
  · cases stops
  · obtain ⟨text, -, rfl⟩ := Option.map_eq_some_iff.mp stops
    have same : "aborted: " ++ text = cancelledText := Option.some.inj why
    have chars := congrArg (fun s : String => s.toList.head?) same
    simp [cancelledText] at chars

/-- Steps that are done or have failed are not on record as cancelled. -/
theorem not_cancelled_steps {c : RunCard} {l : Leavings} {now : ℤ} (failed : Option String) :
    ¬Cancelled (c.ended l (failed.elim .done .failed) now) := by
  rintro ⟨status, -⟩
  cases failed with
  | none =>
      cases hf : l.fault c.profile <;>
        simp [RunCard.ended, Leavings.verdict, hf] at status
  | some why => simp [RunCard.ended, Leavings.verdict] at status

variable {ι : Type} [DecidableEq ι]

/-- A run of this identifier was going when somebody asked to cancel. -/
def Asked (file : Option Held) (events : List (Event ι)) (id : ℤ) : Prop :=
  ∃ before after i c, events = before ++ .cancel :: after ∧
    (Machine.run step (start file) before).1.run i = .going c ∧ c.runId = id

/-- What is cancelled was asked for, and while the flag of `cancel` is up, whatever is going was
going when it was raised. -/
structure Obeyed (file : Option Held) (events : List (Event ι)) (w : World ι) : Prop where
  heard : w.cancel = true → ∀ i c, w.run i = .going c → Asked file events c.runId
  leaving : ∀ i c, w.run i = .ended c → Cancelled c → Asked file events c.runId
  rows : ∀ r ∈ w.table.rows, Cancelled r.card → Asked file events r.id

variable {file : Option Held} {events : List (Event ι)} {w : World ι}

theorem Asked.later {id : ℤ} (h : Asked file events id) (v : Event ι) :
    Asked file (events ++ [v]) id := by
  obtain ⟨before, after, i, c, rfl, going, own⟩ := h
  exact ⟨before, after ++ [v], i, c, by simp, going, own⟩

theorem Obeyed.later (h : Obeyed file events w) (v : Event ι) : Obeyed file (events ++ [v]) w where
  heard up i c going := (h.heard up i c going).later v
  leaving i c hc cancelled := (h.leaving i c hc cancelled).later v
  rows r hr cancelled := (h.rows r hr cancelled).later v

theorem obeyed_launch (h : Obeyed file events w) (p : ℤ) (alive : ℤ → Bool) (now : ℤ)
    (requests : ι → RunRequest) : Obeyed file events (launch w p alive now requests) where
  heard up := by cases up
  leaving i c hc := by cases hc
  rows r hr cancelled := by
    obtain old | ⟨q, -, -, -, stale⟩ := (mem_closeStale hr).2
    · exact h.rows r old cancelled
    · rw [cancelled.2] at stale
      exact absurd stale (by decide)

/-- A run goes on to a stage at which it is not going, and if it is over, it was not cancelled. -/
theorem Obeyed.moves (h : Obeyed file events w) {i : ι} {s : RunStage}
    (going : ∀ c, s ≠ .going c)
    (closed : ∀ c, s = .ended c → Cancelled c → Asked file events c.runId) :
    Obeyed file events { w with run := Function.update w.run i s } where
  heard up := forall_moved (P := fun _ s => ∀ c, s = .going c → Asked file events c.runId)
    (fun c hc => absurd hc (going c)) (h.heard up)
  leaving := forall_moved
    (P := fun _ s => ∀ c, s = .ended c → Cancelled c → Asked file events c.runId) closed h.leaving
  rows := h.rows

theorem obeyed_requestStep (h : Obeyed file events w) (alive : ℤ → Bool) (i : ι) :
    Obeyed file events (requestStep w alive i).1 := by
  unfold requestStep
  split
  · unfold lockStep
    dsimp only
    split
    · have moved := h.moves (i := i)
        (s := .recorded { (w.requests i).card with runId := w.table.nextId }) (by simp) (by simp)
      exact { moved with
        rows := by
          intro r hr cancelled
          obtain old | ⟨-, -, card⟩ := mem_start hr
          · exact h.rows r old cancelled
          · rw [card] at cancelled
            cases cancelled.2 }
    · exact { h with }
  · exact {
      heard := by rintro ⟨⟩
      leaving := forall_moved
        (P := fun _ s => ∀ c, s = .ended c → Cancelled c → Asked file events c.runId)
        (by simp) h.leaving
      rows := h.rows }
  · exact h

theorem obeyed_endRun (h : Obeyed file events w) (i : ι) (l : Leavings) (stop : StepEnd) (now : ℤ)
    (closed : ∀ c, w.run i = .going c → Cancelled (c.ended l stop now) → Asked file events c.runId) :
    Obeyed file events (endRun w i l stop now) := by
  unfold endRun
  split
  case h_1 c going =>
    refine h.moves (by simp) ?_
    rintro _ ⟨⟩ cancelled
    exact closed c going cancelled
  case h_2 => exact h

theorem obeyed_finishStep (h : Obeyed file events w) (i : ι) :
    Obeyed file events (finishStep w i) := by
  unfold finishStep
  split
  case h_1 c ended =>
    have moved := h.moves (i := i) (s := .stored c) (by simp) (by simp)
    exact { moved with
      rows := by
        intro r hr cancelled
        obtain ⟨q, hq, same, ⟨-, rfl⟩ | ⟨own, -, card⟩⟩ := mem_finish hr
        · exact h.rows _ hq cancelled
        · rw [card] at cancelled
          rw [← same, own]
          exact h.leaving i c ended cancelled }
  case h_2 c stored => exact { h.moves (i := i) (s := .released c) (by simp) (by simp) with }
  case h_3 c released =>
    have moved := h.moves (i := i) (s := .over) (by simp) (by simp)
    exact { moved with heard := by rintro ⟨⟩ }
  case h_4 => exact h

/-- What a step leaves is obeyed too, where the world is that of the run so far. -/
theorem obeyed_step (events : List (Event ι))
    (h : Obeyed file events (Machine.run step (start file) events).1) (v : Event ι) :
    Obeyed file (events ++ [v]) (step (Machine.run step (start file) events).1 v).1 := by
  have now : ∀ i c, (Machine.run step (start file) events).1.run i = .going c →
      Asked file (events ++ [.cancel]) c.runId :=
    fun i c going => ⟨events, [], i, c, rfl, going, rfl⟩
  generalize Machine.run step (start file) events = r at h now
  have later := h.later v
  unfold step
  split
  · exact obeyed_launch later _ _ _ _
  · exact { later with }
  · exact obeyed_requestStep later _ _
  · unfold cancelStep
    split
    · exact { later with heard := fun _ => now }
    · exact later
  · unfold nameStep
    split
    · exact { later with }
    · exact later
  · cases stops : mustStop r.1.cancel _ _ _ with
    | none => exact later
    | some stop =>
        exact obeyed_endRun later _ _ _ _ fun c going cancelled =>
          later.heard (mustStop_of_cancelled stops cancelled) _ c going
  · exact obeyed_endRun later _ _ _ _ fun c _ cancelled =>
      absurd cancelled (not_cancelled_steps _)
  · exact obeyed_finishStep later _
  · exact { later with }
  · exact { later with rows := fun q hq => later.rows q (List.mem_of_mem_filter hq) }
  · exact later

theorem obeyed_run (file : Option Held) (events : List (Event ι)) :
    Obeyed file events (Machine.run step (start file) events).1 := by
  induction events using List.reverseRecOn with
  | nil =>
      exact {
        heard := by rintro ⟨⟩
        leaving := by rintro i c ⟨⟩
        rows := by simp [start] }
  | append_singleton events v ih =>
      rw [Machine.run_concat]
      exact obeyed_step events ih v

/-- A run that is on record as cancelled was going when somebody asked to cancel: the flag does not
outlive the run it was raised for. -/
theorem cancelled_was_asked (file : Option Held) (events : List (Event ι)) (r : RunRow)
    (recorded : r ∈ (Machine.run step (start file) events).1.table.rows)
    (cancelled : Cancelled r.card) :
    ∃ before after i c, events = before ++ .cancel :: after ∧
      (Machine.run step (start file) before).1.run i = .going c ∧ c.runId = r.id :=
  (obeyed_run file events).rows r recorded cancelled

end

theorem cancelledRow_was_asked :
    ∃ before after i c, cancelledRun = before ++ .cancel :: after ∧
      (Machine.run step (start none) before).1.run i = .going c ∧ c.runId = 1 :=
  cancelled_was_asked none cancelledRun cancelledRow (by decide) ⟨rfl, rfl⟩

end Lss.Analysis.RunLedger
