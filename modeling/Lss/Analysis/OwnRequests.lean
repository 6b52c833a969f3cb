import Lss.Library.Machine
import Lss.Model.SafetyPolls

/-!
# The benchmark's own requests on the engine

What the watch counts as the benchmark's own, beside what is true of its requests: where those in
flight are, which ones the client gave up while the engine still runs them, and what other people
run. The count never exceeds the requests in flight, one of grace and those given up. It is never
below what the engine runs of the benchmark as long as no scrape is low enough to settle the
requests given up while one of them still runs: requests that have not arrived leave room for it.
-/

set_option autoImplicit false

namespace Lss.Analysis.OwnRequests

open Lss.Model Lss.Library

/-! ## What is true of the requests -/

/-- The watch's account, and what is true at the time. -/
structure Bench where
  own : OwnLoad
  /-- in flight, and not at the engine yet -/
  waiting : ℕ := 0
  /-- in flight, and on the engine -/
  running : ℕ := 0
  /-- in flight, and over on the engine -/
  answered : ℕ := 0
  /-- given up by the client, and not at the engine yet -/
  pending : ℕ := 0
  /-- given up by the client, and on the engine -/
  left : ℕ := 0
  /-- of other people, on the engine -/
  others : ℕ := 0
  /-- given up by the client so far -/
  gaveUp : ℕ := 0

namespace Bench

/-- The requests in flight. -/
def inflight (b : Bench) : ℕ := b.waiting + b.running + b.answered

/-- The benchmark's requests on the engine. -/
def onEngine (b : Bench) : ℕ := b.running + b.left

/-- What the engine says it runs. -/
def engineRunning (b : Bench) : ℕ := b.onEngine + b.others

end Bench

inductive Event where
  /-- a batch goes out, when there is none -/
  | start (n : ℕ)
  /-- a request in flight reaches the engine -/
  | arrive
  /-- a request in flight fails before the engine -/
  | refuse
  /-- the engine ends a request in flight -/
  | answer
  /-- the batch returns, so many of it given up: all that were not over -/
  | finish (now poll : ℤ) (abandoned : ℕ)
  /-- a request that was given up reaches the engine -/
  | arriveLate
  /-- a request that was given up never reaches the engine -/
  | drop
  /-- the engine ends a request that was given up -/
  | endLeft
  /-- other people start and end requests -/
  | change (others : ℕ)
  /-- a scrape, which may be unreadable -/
  | count (now : ℤ) (readable : Bool)

/-- A count, and what was true when it was taken. -/
structure Counted where
  bench : Bench
  readable : Bool
  value : ℕ

/-- One event; one that cannot happen changes nothing. -/
def step (b : Bench) : Event → Bench × List Counted
  | .start n =>
    (if b.inflight = 0 then { b with own := b.own.start n, waiting := n } else b, [])
  | .arrive =>
    (if 0 < b.waiting then { b with waiting := b.waiting - 1, running := b.running + 1 } else b, [])
  | .refuse =>
    (if 0 < b.waiting then { b with waiting := b.waiting - 1, answered := b.answered + 1 } else b,
      [])
  | .answer =>
    (if 0 < b.running then { b with running := b.running - 1, answered := b.answered + 1 } else b,
      [])
  | .finish now poll abandoned =>
    (if b.waiting + b.running ≤ abandoned ∧ abandoned ≤ b.inflight then
      { b with
        own := b.own.finish now poll abandoned
        waiting := 0
        running := 0
        answered := 0
        pending := b.pending + b.waiting
        left := b.left + b.running
        gaveUp := b.gaveUp + abandoned }
    else b, [])
  | .arriveLate =>
    (if 0 < b.pending then { b with pending := b.pending - 1, left := b.left + 1 } else b, [])
  | .drop => ({ b with pending := b.pending - 1 }, [])
  | .endLeft => ({ b with left := b.left - 1 }, [])
  | .change others => ({ b with others := others }, [])
  | .count now readable =>
    let counted := b.own.count now (if readable then some (b.engineRunning : ℚ) else none)
    ({ b with own := counted.1 }, [⟨b, readable, counted.2⟩])

/-- The benchmark before its first request. -/
def idle (now : ℤ) : Bench := { own := OwnLoad.new now }

/-- The counts of a run. -/
def counts (now : ℤ) (events : List Event) : List Counted :=
  (Machine.run step (idle now) events).2

/-- A count between what the engine runs of the benchmark and what it may be taken for. -/
def Counted.Within (c : Counted) : Prop :=
  c.bench.onEngine ≤ c.value ∧ c.value ≤ c.bench.inflight + 1 + c.bench.gaveUp

instance (c : Counted) : Decidable c.Within := inferInstanceAs (Decidable (_ ∧ _))

/-- A scrape that settles the requests given up while one of them may still run: the requests in
flight that are not on the engine make up for it and for other people's. -/
def Counted.Forgets (c : Counted) : Prop :=
  c.readable = true ∧ 0 < c.bench.left + c.bench.pending ∧
    c.bench.left + c.bench.others ≤ c.bench.waiting + c.bench.answered

instance (c : Counted) : Decidable c.Forgets := inferInstanceAs (Decidable (_ ∧ _ ∧ _))

/-! ## The account -/

/-- What the account says of the requests: those in flight, and no more given up than were. -/
structure Kept (b : Bench) : Prop where
  inflight : b.own.inflight = b.inflight
  gaveUp : b.own.abandoned ≤ b.gaveUp

/-- Every request that was given up and may still run is remembered. -/
def Covers (b : Bench) : Prop := b.left + b.pending ≤ b.own.abandoned

/-- The requests given up are settled exactly by a readable scrape of no more than those in
flight. -/
theorem count_eq (o : OwnLoad) (now : ℤ) (readable : Bool) (running : ℕ) :
    o.count now (if readable then some (running : ℚ) else none) =
      let settled := readable = true ∧ running ≤ o.inflight
      let abandoned := if settled then 0 else o.abandoned
      ({ o with abandoned := abandoned },
        (if 0 < o.inflight then o.inflight else if now < o.graceUntil then 1 else 0) +
          abandoned) := by
  have low : ((running : ℚ) ≤ o.inflight + 1 / 2) ↔ running ≤ o.inflight := by
    constructor
    · intro h
      by_contra more
      have one_more : ((o.inflight : ℚ) + 1) ≤ running := by exact_mod_cast not_le.mp more
      linarith
    · intro h
      have less : (running : ℚ) ≤ o.inflight := by exact_mod_cast h
      linarith
  unfold OwnLoad.count
  cases readable with
  | false => simp
  | true =>
      simp only [Option.any_some, low, if_true, decide_eq_true_eq, true_and]
      split <;> rfl

/-- What an event does to the account, and what it counts. -/
theorem Kept.step {b : Bench} (h : Kept b) (e : Event) :
    Kept (step b e).1 ∧
      ∀ c ∈ (OwnRequests.step b e).2, c.value ≤ c.bench.inflight + 1 + c.bench.gaveUp := by
  obtain ⟨inflight, gaveUp⟩ := h
  unfold Bench.inflight at inflight
  cases e with
  | count now readable =>
      simp only [OwnRequests.step, count_eq, List.mem_singleton, forall_eq]
      refine ⟨⟨inflight, ?_⟩, ?_⟩
      · show (if readable = true ∧ b.engineRunning ≤ b.own.inflight then 0 else b.own.abandoned) ≤
          b.gaveUp
        split <;> omega
      · unfold Bench.inflight
        split <;> split <;> (try split) <;> omega
  | start n =>
      simp only [OwnRequests.step, List.not_mem_nil, false_imp_iff, implies_true, and_true]
      split
      · rename_i none_out
        unfold Bench.inflight at none_out
        refine ⟨?_, gaveUp⟩
        simp only [OwnLoad.start, Bench.inflight]
        omega
      · exact ⟨inflight, gaveUp⟩
  | finish now poll abandoned =>
      simp only [OwnRequests.step, List.not_mem_nil, false_imp_iff, implies_true, and_true]
      split
      · refine ⟨rfl, ?_⟩
        simp only [OwnLoad.finish]
        omega
      · exact ⟨inflight, gaveUp⟩
  | arrive | refuse | answer | arriveLate =>
      simp only [OwnRequests.step, List.not_mem_nil, false_imp_iff, implies_true, and_true]
      split
      · refine ⟨?_, gaveUp⟩
        simp only [Bench.inflight]
        omega
      · exact ⟨inflight, gaveUp⟩
  | drop | endLeft | change =>
      simp only [OwnRequests.step, List.not_mem_nil, false_imp_iff, implies_true, and_true]
      exact ⟨inflight, gaveUp⟩

/-- Where every request given up is remembered, an event keeps it so unless it is a scrape that
forgets one, and a count covers what the engine runs. -/
theorem Covers.step {b : Bench} (h : Covers b) (kept : Kept b) (e : Event)
    (honest : ∀ c ∈ (step b e).2, ¬c.Forgets) :
    Covers (step b e).1 ∧ ∀ c ∈ (OwnRequests.step b e).2, c.bench.onEngine ≤ c.value := by
  have inflight := kept.inflight
  unfold Covers at h ⊢
  unfold Bench.inflight at inflight
  cases e with
  | count now readable =>
      simp only [OwnRequests.step, count_eq, List.mem_singleton, forall_eq] at honest ⊢
      unfold Counted.Forgets at honest
      unfold Bench.onEngine
      by_cases settled : readable = true ∧ b.engineRunning ≤ b.own.inflight
      · have low := settled.2
        unfold Bench.engineRunning Bench.onEngine at low
        -- nothing that was given up runs, so what is on the engine is in flight
        have none_left : b.left + b.pending = 0 := by
          by_contra some_left
          apply honest
          refine ⟨settled.1, by dsimp only; omega, ?_⟩
          dsimp only
          omega
        rw [if_pos settled]
        refine ⟨by omega, ?_⟩
        split <;> omega
      · rw [if_neg settled]
        refine ⟨h, ?_⟩
        split <;> omega
  | start n =>
      simp only [OwnRequests.step, List.not_mem_nil, false_imp_iff, implies_true, and_true]
      split <;> exact h
  | finish now poll abandoned =>
      simp only [OwnRequests.step, List.not_mem_nil, false_imp_iff, implies_true, and_true]
      split
      · simp only [OwnLoad.finish]
        omega
      · exact h
  | arrive | refuse | answer | arriveLate =>
      simp only [OwnRequests.step, List.not_mem_nil, false_imp_iff, implies_true, and_true]
      split
      · dsimp only
        omega
      · exact h
  | drop | endLeft | change =>
      simp only [OwnRequests.step, List.not_mem_nil, false_imp_iff, implies_true, and_true]
      omega

theorem kept_idle (now : ℤ) : Kept (idle now) := ⟨rfl, le_rfl⟩

/-- No count of a run exceeds the requests in flight, one of grace and those given up. -/
theorem counts_le (now : ℤ) (events : List Event) :
    Kept (Machine.run step (idle now) events).1 ∧
      ∀ c ∈ counts now events, c.value ≤ c.bench.inflight + 1 + c.bench.gaveUp := by
  apply Machine.run_induction step
    fun _ b log => Kept b ∧ ∀ c ∈ log, c.value ≤ c.bench.inflight + 1 + c.bench.gaveUp
  · exact ⟨kept_idle now, by simp⟩
  · intro _ b log e ⟨kept, below⟩
    obtain ⟨kept', below'⟩ := kept.step e
    refine ⟨kept', ?_⟩
    intro c hc
    rcases List.mem_append.mp hc with hc | hc
    · exact below c hc
    · exact below' c hc

/-- In every run in which no scrape settles a request that may still run, every count is between
what the engine runs of the benchmark and what it may be taken for. -/
theorem counts_within (now : ℤ) (events : List Event)
    (honest : ∀ c ∈ counts now events, ¬c.Forgets) : ∀ c ∈ counts now events, c.Within := by
  have run : Kept (Machine.run step (idle now) events).1 ∧
      ((∀ c ∈ (Machine.run step (idle now) events).2, ¬c.Forgets) →
        Covers (Machine.run step (idle now) events).1 ∧
          ∀ c ∈ (Machine.run step (idle now) events).2, c.bench.onEngine ≤ c.value) := by
    apply Machine.run_induction step fun _ b log =>
      Kept b ∧ ((∀ c ∈ log, ¬c.Forgets) → Covers b ∧ ∀ c ∈ log, c.bench.onEngine ≤ c.value)
    · exact ⟨kept_idle now, fun _ => ⟨le_rfl, by simp⟩⟩
    · intro _ b log e ⟨kept, covered⟩
      refine ⟨(kept.step e).1, ?_⟩
      intro honest
      obtain ⟨covers, above⟩ := covered fun c hc => honest c (List.mem_append_left _ hc)
      obtain ⟨covers', above'⟩ :=
        covers.step kept e fun c hc => honest c (List.mem_append_right _ hc)
      refine ⟨covers', ?_⟩
      intro c hc
      rcases List.mem_append.mp hc with hc | hc
      · exact above c hc
      · exact above' c hc
  intro c hc
  exact ⟨(run.2 honest).2 c hc, (counts_le now events).2 c hc⟩

/-- A request that times out, whose next one goes out and arrives behind a scrape that still sees
it run. -/
def timedOut : List Event :=
  [.start 1, .arrive, .finish 0 5 1, .start 1, .arrive, .count 20 true]

/-- One scrape sees both requests on the engine, and counts both. -/
theorem timedOut_within : (∀ c ∈ counts 0 timedOut, ¬c.Forgets) ∧
    ∀ c ∈ counts 0 timedOut, c.Within :=
  have honest : ∀ c ∈ counts 0 timedOut, ¬c.Forgets := by decide +kernel
  ⟨honest, counts_within 0 timedOut honest⟩

/-- A request times out, and the next one has not arrived when the engine is scraped: the engine
runs as many as are in flight, so the one it still runs is taken for ended. Once the next one
arrives the engine runs two requests of the benchmark, and one is counted. -/
theorem a_late_arrival_hides_a_request :
    ¬∀ now events, ∀ c ∈ counts now events, c.Within := by
  intro h
  have within := h 0 [.start 1, .arrive, .finish 0 5 1, .start 1, .count 20 true, .arrive,
    .count 25 true]
  have short : ∃ c ∈ counts 0 [.start 1, .arrive, .finish 0 5 1, .start 1, .count 20 true, .arrive,
      .count 25 true], c.value < c.bench.onEngine := by decide +kernel
  obtain ⟨c, hc, short⟩ := short
  have enough := (within c hc).1
  omega

/-! ## What is forgotten can show -/

/-- Behind a scrape that forgets a request, not every one is remembered. -/
theorem not_covers_of_forgets {b : Bench} (kept : Kept b) {now : ℤ} {readable : Bool}
    (forgets : ∀ c ∈ (step b (.count now readable)).2, c.Forgets) :
    ¬Covers (step b (.count now readable)).1 := by
  have inflight := kept.inflight
  simp only [step, count_eq, List.mem_singleton, forall_eq, Counted.Forgets] at forgets
  obtain ⟨read, some_left, room⟩ := forgets
  have settled : readable = true ∧ b.engineRunning ≤ b.own.inflight := by
    refine ⟨read, ?_⟩
    rw [inflight]
    unfold Bench.engineRunning Bench.onEngine Bench.inflight
    omega
  simp only [step, count_eq, Covers, if_pos settled]
  omega

theorem run_arriveLate (n : ℕ) (b : Bench) (enough : n ≤ b.pending) :
    Machine.run step b (List.replicate n .arriveLate) =
      ({ b with pending := b.pending - n, left := b.left + n }, []) := by
  induction n generalizing b with
  | zero => rfl
  | succ n ih =>
      have one : step b .arriveLate =
          ({ b with pending := b.pending - 1, left := b.left + 1 }, []) := by
        simp only [step]
        rw [if_pos (by omega)]
      rw [List.replicate_succ, Machine.run_cons, one, ih _ (by dsimp only; omega)]
      simp only [List.append_nil, Prod.mk.injEq, Bench.mk.injEq, and_true, true_and]
      omega

/-- Where not every request given up is remembered, the run can go on to a count below what the
engine runs of the benchmark: the batch times out, and what was given up arrives. -/
theorem shows_of_not_covers {b : Bench} (kept : Kept b) (short : ¬Covers b) :
    ∃ more, ∃ c ∈ (Machine.run step b more).2, ¬c.Forgets ∧ c.value < c.bench.onEngine := by
  have inflight := kept.inflight
  unfold Covers at short
  unfold Bench.inflight at inflight
  have gone : step b (.finish 0 0 (b.waiting + b.running)) =
      ({ b with
        own := b.own.finish 0 0 (b.waiting + b.running)
        waiting := 0
        running := 0
        answered := 0
        pending := b.pending + b.waiting
        left := b.left + b.running
        gaveUp := b.gaveUp + (b.waiting + b.running) }, []) := by
    simp only [step]
    rw [if_pos]
    unfold Bench.inflight
    omega
  refine ⟨.finish 0 0 (b.waiting + b.running) ::
    (List.replicate (b.pending + b.waiting) .arriveLate ++ [.count 0 false]), ?_⟩
  rw [Machine.run_cons, gone, Machine.run_append, run_arriveLate _ _ le_rfl, Machine.run_cons]
  simp only [step, count_eq, OwnLoad.finish, Machine.run_nil, List.nil_append, List.append_nil,
    List.mem_singleton, exists_eq_left, Counted.Forgets, Bench.onEngine]
  simp only [Bool.false_eq_true, false_and, not_false_eq_true, if_false, true_and, lt_irrefl,
    zero_mul, add_zero]
  omega

end Lss.Analysis.OwnRequests
