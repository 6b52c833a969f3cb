import Lss.Analysis.TodayPrices
import Lss.Model.IdleGate

/-!
# What the idle gate proves

The gate reads what the engine generated off the samples of its window. A scrape that failed
takes two steps out of the sum and an engine that started again hides what it had made before,
and the sum does not say how much of the window it covers: two samples are enough. The gate
proves quiet for every engine and every schedule of probes exactly when its window has no step
to compare at all, or when every step in it can be compared and the samples reach both ends.
-/

set_option autoImplicit false

namespace Lss.Analysis.IdleWindows

open Lss.Model
open Lss.Library.Steps
open Lss.Analysis.TodayPrices (stepGrowth getD_counterGrowth)

/-! ## A run of polls -/

/-- A poll: what it read beside the counter of generated tokens, and whether the engine has
started since the poll before. -/
structure Scraped where
  sample : Sample
  restarted : Bool

/-- The tokens generated since the poll before: by the engine that was up then, and by the one
that has started since. -/
structure Made where
  before : ℤ → ℕ
  after : ℤ → ℕ

namespace Scraped

/-- The engine's counter at a poll; it starts again with the engine. -/
def counter (p : Scraped) (made : Made) (c : ℕ) : ℕ :=
  if p.restarted then made.after p.sample.ts else c + made.before p.sample.ts

/-- All the tokens generated since the poll before. -/
def made (p : Scraped) (m : Made) : ℕ :=
  m.before p.sample.ts + if p.restarted then m.after p.sample.ts else 0

/-- The sample of a poll, when the scrape did not fail with the counter in it. -/
def withCounter (p : Scraped) (n : ℕ) : Sample :=
  { p.sample with
    metrics := p.sample.metrics.map fun m => { m with generationTokensTotal := n } }

/-- The metrics of two polls can be compared. -/
def Linked (p q : Scraped) : Prop :=
  ∃ m ∈ p.sample.metrics, ∃ n ∈ q.sample.metrics, n.comparable m = true

end Scraped

/-- The samples of a run of polls, from what the counter was before it. -/
def samples (made : Made) : ℕ → List Scraped → List Sample
  | _, [] => []
  | c, p :: polls => p.withCounter (p.counter made c) :: samples made (p.counter made c) polls

/-- What the collector remembers: of the polls before it started those of an hour, which it reads
back from the database, and those since. -/
def remembered (made : Made) (c : ℕ) (polls : List Scraped) : History :=
  (samples made c polls).foldl History.push []

/-- The polls the gate's window holds. -/
def window (polls : List Scraped) (now idleSecs : ℤ) : List Scraped :=
  polls.filter fun p => now - idleSecs ≤ p.sample.ts ∧
    ∀ last ∈ polls.getLast?, last.sample.ts - historySecs - seriesStepSecs ≤ p.sample.ts

/-- The tokens generated between the first and the last poll of some. -/
def generatedIn (made : Made) (polls : List Scraped) : ℕ :=
  (polls.tail.map fun p => p.made made).sum

/-- A step from which the growth of the counter is read. -/
def Compared (p : Sample × Sample) : Prop :=
  ∃ m ∈ p.1.metrics, ∃ n ∈ p.2.metrics,
    n.comparable m = true ∧ m.generationTokensTotal ≤ n.generationTokensTotal

/-- The samples compared cover a window up to one poll at each end. -/
structure Covers (poll : ℤ) (h : List Sample) (now idleSecs : ℤ) : Prop where
  first : ∃ s ∈ h.head?, s.ts ≤ now - idleSecs + poll
  last : ∃ s ∈ h.getLast?, now - poll ≤ s.ts
  compared : ∀ p ∈ steps h, Compared p

/-- Whatever the engine generated and whatever the probes did, the gate says yes only on evidence
that covers its window, in which the engine generated no more than the probes and the margin. -/
def ProvesQuiet (poll : ℤ) (polls : List Scraped) (now idleSecs : ℤ) : Prop :=
  ∀ made c db o, o.idleSecs = idleSecs →
    o.tokensGenerated = recentTokensGenerated (remembered made c polls) db now idleSecs →
    idleGate o false = .ok () →
      Covers poll ((remembered made c polls).filter fun s => now - idleSecs ≤ s.ts) now idleSecs ∧
      (generatedIn made (window polls now idleSecs) : ℚ) ≤
        ownProbeTokens db now idleSecs + counterMarginTokens

/-- The window's polls reach both of its ends, none of them failed, and the engine did not start
again between two of them. -/
structure Unbroken (poll : ℤ) (polls : List Scraped) (now idleSecs : ℤ) : Prop where
  first : ∃ p ∈ (window polls now idleSecs).head?, p.sample.ts ≤ now - idleSecs + poll
  last : ∃ p ∈ (window polls now idleSecs).getLast?, now - poll ≤ p.sample.ts
  linked : ∀ s ∈ steps (window polls now idleSecs), s.1.Linked s.2 ∧ s.2.restarted = false

/-! ## The samples of the window -/

/-- Polls in order of time. -/
def InOrder (polls : List Scraped) : Prop := polls.Pairwise fun p q => p.sample.ts < q.sample.ts

theorem samples_ts (made : Made) (c : ℕ) (polls : List Scraped) :
    (samples made c polls).map Sample.ts = polls.map fun p => p.sample.ts := by
  induction polls generalizing c with
  | nil => rfl
  | cons p polls ih => exact congrArg (p.sample.ts :: ·) (ih _)

theorem increasing_samples {polls : List Scraped} (inOrder : InOrder polls) (made : Made) (c : ℕ) :
    Increasing (samples made c polls) := by
  unfold Increasing
  rw [← List.pairwise_map (f := Sample.ts) (R := fun a b : ℤ => a < b), samples_ts,
    List.pairwise_map]
  exact inOrder

/-- The samples from a time on are those of the polls from that time on. Before them the counter
is as every poll leaves it. -/
theorem samples_filter {polls : List Scraped} (inOrder : InOrder polls) (made : Made) (c : ℕ)
    {P : ℕ → Prop} (start : P c) (keeps : ∀ p ∈ polls, ∀ n, P n → P (p.counter made n)) (t : ℤ) :
    ∃ c', P c' ∧ (samples made c polls).filter (fun s => t ≤ s.ts) =
      samples made c' (polls.filter fun p => t ≤ p.sample.ts) := by
  induction polls generalizing c with
  | nil => exact ⟨c, start, rfl⟩
  | cons p polls ih =>
      obtain ⟨later, rest⟩ := List.pairwise_cons.mp inOrder
      by_cases hp : t ≤ p.sample.ts
      · have all : (p :: polls).filter (fun p => decide (t ≤ p.sample.ts)) = p :: polls := by
          rw [List.filter_eq_self]
          intro q hq
          rw [decide_eq_true_eq]
          cases List.mem_cons.mp hq with
          | inl h => rw [h]; exact hp
          | inr h => exact le_of_lt (lt_of_le_of_lt hp (later q h))
        have all_samples : (samples made c (p :: polls)).filter (fun s => decide (t ≤ s.ts)) =
            samples made c (p :: polls) := by
          rw [List.filter_eq_self]
          intro s hs
          have hts := List.mem_map_of_mem (f := Sample.ts) hs
          rw [samples_ts] at hts
          obtain ⟨q, hq, he⟩ := List.mem_map.mp hts
          have hall := List.filter_eq_self.mp all q hq
          rw [he] at hall
          exact hall
        exact ⟨c, start, by rw [all, all_samples]⟩
      · obtain ⟨c', hc, h⟩ := ih rest (p.counter made c) (keeps p List.mem_cons_self c start)
          fun q hq => keeps q (List.mem_cons_of_mem p hq)
        refine ⟨c', hc, ?_⟩
        rw [List.filter_cons_of_neg (by simpa using hp), ← h]
        exact List.filter_cons_of_neg (by rw [decide_eq_true_eq]; exact hp)

/-- The samples of the gate's window are those of the polls it holds. -/
theorem window_samples {polls : List Scraped} (inOrder : InOrder polls) (made : Made) (c : ℕ)
    {P : ℕ → Prop} (start : P c) (keeps : ∀ p ∈ polls, ∀ n, P n → P (p.counter made n))
    (now idleSecs : ℤ) : ∃ c', P c' ∧
      (remembered made c polls).filter (fun s => now - idleSecs ≤ s.ts) =
        samples made c' (window polls now idleSecs) := by
  cases hlast : polls.getLast? with
  | none =>
      rw [List.getLast?_eq_none_iff] at hlast
      subst hlast
      exact ⟨c, start, rfl⟩
  | some last =>
      have last_sample : ∃ s, (samples made c polls).getLast? = some s ∧ s.ts = last.sample.ts := by
        have h := congrArg List.getLast? (samples_ts made c polls)
        rw [List.getLast?_map, List.getLast?_map, hlast, Option.map_some,
          Option.map_eq_some_iff] at h
        exact h
      obtain ⟨s, hs, hts⟩ := last_sample
      let t := max (now - idleSecs) (last.sample.ts - historySecs - seriesStepSecs)
      obtain ⟨c', hc, h⟩ := samples_filter inOrder made c start keeps t
      have kept : window polls now idleSecs = polls.filter fun p => t ≤ p.sample.ts := by
        unfold window
        apply List.filter_congr
        intro p _
        rw [hlast, decide_eq_decide, max_le_iff]
        apply and_congr_right'
        constructor
        · exact fun h => h last rfl
        · intro h l hl
          cases hl
          exact h
      refine ⟨c', hc, ?_⟩
      rw [kept, ← h]
      unfold remembered
      rw [foldl_push (increasing_samples inOrder made c) hs, List.filter_filter, hts]
      apply List.filter_congr
      intro x _
      rw [← Bool.decide_and, decide_eq_decide, max_le_iff]

/-! ## What the samples of a window show -/

/-- The growth of a counter can be read exactly when some step of the samples shows it. -/
theorem isSome_counterGrowth (h : List Sample) :
    (counterGrowth ServeMetrics.generationTokensTotal h).isSome ↔ ∃ p ∈ steps h, Compared p := by
  have run : ∀ (prev : Sample) (rest : List Sample) (acc : Option ℚ),
      (rest.foldl (counterStep ServeMetrics.generationTokensTotal) (acc, prev.metrics)).1.isSome ↔
        acc.isSome ∨ ∃ p ∈ steps (prev :: rest), Compared p := by
    intro prev rest
    induction rest generalizing prev with
    | nil =>
        intro acc
        constructor
        · exact Or.inl
        · rintro (h | ⟨p, hp, _⟩)
          · exact h
          · exact nomatch hp
    | cons s rest ih =>
        intro acc
        have step : counterStep ServeMetrics.generationTokensTotal (acc, prev.metrics) s =
              ((counterStep ServeMetrics.generationTokensTotal (acc, prev.metrics) s).1,
                s.metrics) ∧
            ((counterStep ServeMetrics.generationTokensTotal (acc, prev.metrics) s).1.isSome ↔
              acc.isSome ∨ Compared (prev, s)) := by
          unfold counterStep Compared
          cases hs : s.metrics with
          | none => simp
          | some n =>
              cases hprev : prev.metrics with
              | none => simp
              | some m =>
                  dsimp only
                  by_cases hc : n.comparable m = true ∧
                      m.generationTokensTotal ≤ n.generationTokensTotal
                  · rw [if_pos hc]
                    exact ⟨rfl, fun _ => Or.inr ⟨m, rfl, n, rfl, hc⟩, fun _ => rfl⟩
                  · rw [if_neg hc]
                    refine ⟨rfl, Or.inl, ?_⟩
                    rintro (h | ⟨m', hm, n', hn, h⟩)
                    · exact h
                    · cases hm
                      cases hn
                      exact absurd h hc
        have list : steps (prev :: s :: rest) = (prev, s) :: steps (s :: rest) := rfl
        rw [List.foldl_cons, step.1, ih, step.2, list, List.exists_mem_cons_iff, or_assoc]
  cases h with
  | nil =>
      constructor
      · exact fun h => nomatch h
      · rintro ⟨p, hp, _⟩
        exact nomatch hp
  | cons s rest =>
      have first : counterStep ServeMetrics.generationTokensTotal (none, none) s =
          (none, s.metrics) := by
        unfold counterStep
        cases s.metrics <;> rfl
      unfold counterGrowth
      rw [List.foldl_cons, first, run]
      constructor
      · rintro (h | h)
        · exact nomatch h
        · exact h
      · exact Or.inr

/-- A step between two polls' samples. -/
theorem mem_steps_samples {made : Made} {c : ℕ} {polls : List Scraped} {q : Sample × Sample}
    (hq : q ∈ steps (samples made c polls)) :
    ∃ s ∈ steps polls, ∃ n, q = (s.1.withCounter n, s.2.withCounter (s.2.counter made n)) := by
  induction polls generalizing c with
  | nil => exact nomatch hq
  | cons p polls ih =>
      cases polls with
      | nil => exact nomatch hq
      | cons r polls =>
          cases List.mem_cons.mp hq with
          | inl h => exact ⟨(p, r), List.mem_cons_self, _, h⟩
          | inr h =>
              obtain ⟨s, hs, he⟩ := ih h
              exact ⟨s, List.mem_cons_of_mem _ hs, he⟩

theorem compared_iff (p q : Scraped) (m n : ℕ) :
    Compared (p.withCounter m, q.withCounter n) ↔ p.Linked q ∧ m ≤ n := by
  unfold Compared Scraped.Linked Scraped.withCounter ServeMetrics.comparable
  cases hp : p.sample.metrics with
  | none => simp
  | some pm =>
      cases hq : q.sample.metrics with
      | none => simp
      | some qm => simp

theorem head_ts (made : Made) (c : ℕ) (polls : List Scraped) :
    (samples made c polls).head?.map Sample.ts = polls.head?.map fun p => p.sample.ts := by
  rw [← List.head?_map, samples_ts, List.head?_map]

theorem getLast_ts (made : Made) (c : ℕ) (polls : List Scraped) :
    (samples made c polls).getLast?.map Sample.ts = polls.getLast?.map fun p => p.sample.ts := by
  rw [← List.getLast?_map, samples_ts, List.getLast?_map]

/-- Without a failed scrape and a start in between, the steps show all that was generated. -/
theorem growth_eq {made : Made} {c : ℕ} {polls : List Scraped}
    (linked : ∀ s ∈ steps polls, s.1.Linked s.2 ∧ s.2.restarted = false) :
    ((steps (samples made c polls)).map (stepGrowth ServeMetrics.generationTokensTotal)).sum =
      generatedIn made polls := by
  induction polls generalizing c with
  | nil => exact Nat.cast_zero.symm
  | cons p polls ih =>
      cases polls with
      | nil => exact Nat.cast_zero.symm
      | cons q polls =>
          have rest := ih (c := p.counter made c) fun s hs =>
            linked s (List.mem_cons_of_mem _ hs)
          obtain ⟨⟨m, hm, n, hn, comparable⟩, running⟩ := linked (p, q) List.mem_cons_self
          have step : stepGrowth ServeMetrics.generationTokensTotal
              (p.withCounter (p.counter made c),
                q.withCounter (q.counter made (p.counter made c))) = q.made made := by
            have grown : q.counter made (p.counter made c) = p.counter made c + q.made made := by
              unfold Scraped.counter Scraped.made
              rw [running]
              rfl
            unfold stepGrowth Scraped.withCounter
            rw [hm, hn, grown]
            simp only [Option.map_some]
            rw [if_pos]
            · push_cast
              ring
            · refine ⟨comparable, ?_⟩
              push_cast
              linarith [(q.made made).cast_nonneg (α := ℚ)]
          have list : generatedIn made (p :: q :: polls) =
              q.made made + generatedIn made (q :: polls) := List.sum_cons
          show stepGrowth _ _ + _ = _
          rw [list, Nat.cast_add, ← rest, step]
          rfl

/-! ## What the gate says -/

theorem tokens_of_ok {o : IdleObs} (h : idleGate o false = .ok ()) :
    ∃ tok, o.tokensGenerated = some tok ∧ tok ≤ 0 := by
  unfold idleGate at h
  split at h
  · cases h
  rw [if_neg (by decide)] at h
  split at h
  · cases h
  cases ht : o.tokensGenerated with
  | none =>
      rw [ht] at h
      cases h
  | some tok =>
      rw [ht] at h
      dsimp only at h
      split at h
      · cases h
      · rename_i quiet
        exact ⟨tok, rfl, not_lt.mp quiet⟩

/-- The gate says yes to an engine that is up, unused and shows no tokens. -/
theorem ok_of_quiet {o : IdleObs} (up : o.serveUp = true) (idle : o.running = 0 ∧ o.queue = 0)
    (nobody : o.otherUsersInflight = 0) (quiet : o.tokensGenerated = some 0) :
    idleGate o false = .ok () := by
  unfold idleGate
  rw [up, idle.1, idle.2, nobody, quiet]
  rfl

theorem growth_of_tokens {raw : Option ℚ} {own tok : ℚ} (h : realTokensGenerated raw own = some tok)
    (quiet : tok ≤ 0) : ∃ grown, raw = some grown ∧ grown ≤ own + counterMarginTokens := by
  obtain ⟨grown, hraw, he⟩ := Option.map_eq_some_iff.mp h
  have le := le_max_left (grown - own - counterMarginTokens) 0
  rw [he] at le
  exact ⟨grown, hraw, by linarith⟩

/-- A window without a comparable step is never quiet. -/
theorem never_ok {polls : List Scraped} {now idleSecs : ℤ} (inOrder : InOrder polls)
    (none_linked : ∀ s ∈ steps (window polls now idleSecs), ¬s.1.Linked s.2) {made : Made} {c : ℕ}
    {db : StoredRecords} {o : IdleObs}
    (shown : o.tokensGenerated = recentTokensGenerated (remembered made c polls) db now idleSecs) :
    idleGate o false ≠ .ok () := by
  intro ok
  obtain ⟨tok, htok, quiet⟩ := tokens_of_ok ok
  rw [shown] at htok
  obtain ⟨grown, hraw, _⟩ := growth_of_tokens htok quiet
  obtain ⟨c', _, list⟩ := window_samples (P := fun _ => True) inOrder made c
    trivial (fun _ _ _ _ => trivial) now idleSecs
  have seen := (isSome_counterGrowth _).mp (Option.isSome_iff_exists.mpr ⟨grown, hraw⟩)
  rw [list] at seen
  obtain ⟨q, hq, compared⟩ := seen
  obtain ⟨s, hs, n, rfl⟩ := mem_steps_samples hq
  exact none_linked s hs ((compared_iff _ _ _ _).mp compared).1

/-- An unbroken window proves quiet. -/
theorem Unbroken.proves {poll : ℤ} {polls : List Scraped} {now idleSecs : ℤ}
    (inOrder : InOrder polls) (h : Unbroken poll polls now idleSecs) :
    ProvesQuiet poll polls now idleSecs := by
  intro made c db o _ shown ok
  obtain ⟨tok, htok, quiet⟩ := tokens_of_ok ok
  rw [shown] at htok
  obtain ⟨grown, hraw, le⟩ := growth_of_tokens htok quiet
  obtain ⟨c', _, list⟩ := window_samples (P := fun _ => True) inOrder made c
    trivial (fun _ _ _ _ => trivial) now idleSecs
  have total := getD_counterGrowth ServeMetrics.generationTokensTotal
    (samples made c' (window polls now idleSecs))
  have counted : counterGrowth ServeMetrics.generationTokensTotal
      (samples made c' (window polls now idleSecs)) = some grown := by
    rw [← list]
    exact hraw
  rw [counted, Option.getD_some, growth_eq h.linked] at total
  refine ⟨⟨?_, ?_, ?_⟩, by rw [← total]; exact le⟩
  · obtain ⟨p, hp, hts⟩ := h.first
    have head := head_ts made c' (window polls now idleSecs)
    rw [hp, Option.map_some, Option.map_eq_some_iff] at head
    obtain ⟨s, hs, he⟩ := head
    rw [list]
    exact ⟨s, hs, he ▸ hts⟩
  · obtain ⟨p, hp, hts⟩ := h.last
    have last := getLast_ts made c' (window polls now idleSecs)
    rw [hp, Option.map_some, Option.map_eq_some_iff] at last
    obtain ⟨s, hs, he⟩ := last
    rw [list]
    exact ⟨s, hs, he ▸ hts⟩
  · intro q hq
    rw [list] at hq
    obtain ⟨s, hs, n, rfl⟩ := mem_steps_samples hq
    obtain ⟨linked, running⟩ := h.linked s hs
    refine (compared_iff _ _ _ _).mpr ⟨linked, ?_⟩
    unfold Scraped.counter
    rw [running]
    exact Nat.le_add_right _ _

/-- An engine that generates nothing that its counter shows. -/
structure Unseen (made : Made) (polls : List Scraped) : Prop where
  after : ∀ p ∈ polls, made.after p.sample.ts = 0
  before : ∀ p ∈ polls, p.restarted = false → made.before p.sample.ts = 0

/-- What the gate takes an engine for that shows nothing, when some step can be compared. -/
def unused (idleSecs : ℤ) : IdleObs :=
  { serveUp := true
    running := 0
    queue := 0
    tokensGenerated := some 0
    idleSecs := idleSecs
    otherUsersInflight := 0 }

theorem unused_ok (idleSecs : ℤ) : idleGate (unused idleSecs) false = .ok () :=
  ok_of_quiet rfl ⟨rfl, rfl⟩ rfl rfl

theorem Unseen.keeps {made : Made} {polls : List Scraped} (h : Unseen made polls) :
    ∀ p ∈ polls, ∀ n, n = 0 → p.counter made n = 0 := by
  intro p hp n hn
  unfold Scraped.counter
  split
  · exact h.after p hp
  · rename_i running
    rw [hn, h.before p hp (Bool.eq_false_iff.mpr running)]

theorem Unseen.samples_eq {made : Made} {polls : List Scraped} (h : Unseen made polls) :
    samples made 0 polls = polls.map fun p => p.withCounter 0 := by
  induction polls with
  | nil => rfl
  | cons p polls ih =>
      have rest : Unseen made polls :=
        ⟨fun q hq => h.after q (List.mem_cons_of_mem p hq),
          fun q hq => h.before q (List.mem_cons_of_mem p hq)⟩
      unfold samples
      rw [h.keeps p List.mem_cons_self 0 rfl, ih rest, List.map_cons]

/-- The window of an engine that shows nothing has nothing but zeros in it. -/
theorem Unseen.window_eq {made : Made} {polls : List Scraped} (h : Unseen made polls)
    (inOrder : InOrder polls) (now idleSecs : ℤ) :
    (remembered made 0 polls).filter (fun s => now - idleSecs ≤ s.ts) =
      (window polls now idleSecs).map fun p => p.withCounter 0 := by
  obtain ⟨c', rfl, list⟩ := window_samples (P := fun n => n = 0) inOrder made 0 rfl h.keeps
    now idleSecs
  have sub : ∀ p ∈ window polls now idleSecs, p ∈ polls :=
    fun p hp => (List.mem_filter.mp hp).1
  have unseen : Unseen made (window polls now idleSecs) :=
    ⟨fun p hp => h.after p (sub p hp), fun p hp => h.before p (sub p hp)⟩
  rw [list, unseen.samples_eq]

theorem stepGrowth_zero (p q : Scraped) :
    stepGrowth ServeMetrics.generationTokensTotal (p.withCounter 0, q.withCounter 0) = 0 := by
  unfold stepGrowth Scraped.withCounter
  cases p.sample.metrics with
  | none => rfl
  | some m =>
      cases q.sample.metrics with
      | none => rfl
      | some n =>
          simp only [Option.map_some]
          split
          · exact sub_self _
          · rfl

/-- One comparable step is evidence enough. -/
theorem Unseen.tokens {made : Made} {polls : List Scraped} (h : Unseen made polls)
    (inOrder : InOrder polls) {now idleSecs : ℤ} {s : Scraped × Scraped}
    (hs : s ∈ steps (window polls now idleSecs)) (linked : s.1.Linked s.2) :
    recentTokensGenerated (remembered made 0 polls) {} now idleSecs = some 0 := by
  have flat : (remembered made 0 polls).counterWindow now idleSecs
      ServeMetrics.generationTokensTotal = some 0 := by
    unfold History.counterWindow
    rw [h.window_eq inOrder]
    have seen : (counterGrowth ServeMetrics.generationTokensTotal
        ((window polls now idleSecs).map fun p => p.withCounter 0)).isSome := by
      rw [isSome_counterGrowth, steps_map]
      exact ⟨_, List.mem_map_of_mem hs, (compared_iff _ _ _ _).mpr ⟨linked, le_refl 0⟩⟩
    obtain ⟨grown, hg⟩ := Option.isSome_iff_exists.mp seen
    have total := getD_counterGrowth ServeMetrics.generationTokensTotal
      ((window polls now idleSecs).map fun p => p.withCounter 0)
    rw [hg, Option.getD_some, steps_map, List.map_map] at total
    rw [hg, total]
    congr 1
    apply List.sum_eq_zero
    intro x hx
    obtain ⟨q, _, rfl⟩ := List.mem_map.mp hx
    exact stepGrowth_zero q.1 q.2
  have own : ownProbeTokens {} now idleSecs = 0 := rfl
  unfold recentTokensGenerated realTokensGenerated
  rw [flat, own, Option.map_some]
  congr 1
  exact max_eq_right (by unfold counterMarginTokens; norm_num)

/-! ## The claim -/

/-- A window with a comparable step proves quiet only when it is unbroken. -/
theorem ProvesQuiet.unbroken {poll : ℤ} {polls : List Scraped} {now idleSecs : ℤ}
    (inOrder : InOrder polls) (h : ProvesQuiet poll polls now idleSecs) {s : Scraped × Scraped}
    (hs : s ∈ steps (window polls now idleSecs)) (linked : s.1.Linked s.2) :
    Unbroken poll polls now idleSecs := by
  have idle : Unseen ⟨fun _ => 0, fun _ => 0⟩ polls := ⟨fun _ _ => rfl, fun _ _ _ => rfl⟩
  obtain ⟨covers, _⟩ := h ⟨fun _ => 0, fun _ => 0⟩ 0 {} (unused idleSecs) rfl
    (idle.tokens inOrder hs linked).symm (unused_ok idleSecs)
  rw [idle.window_eq inOrder] at covers
  refine ⟨?_, ?_, ?_⟩
  · obtain ⟨x, hx, hts⟩ := covers.first
    rw [List.head?_map] at hx
    obtain ⟨p, hp, rfl⟩ := Option.map_eq_some_iff.mp hx
    exact ⟨p, hp, hts⟩
  · obtain ⟨x, hx, hts⟩ := covers.last
    rw [List.getLast?_map] at hx
    obtain ⟨p, hp, rfl⟩ := Option.map_eq_some_iff.mp hx
    exact ⟨p, hp, hts⟩
  · intro r hr
    have compared := covers.compared (r.1.withCounter 0, r.2.withCounter 0) (by
      rw [steps_map]
      exact List.mem_map_of_mem hr)
    refine ⟨((compared_iff _ _ _ _).mp compared).1, ?_⟩
    by_contra started
    rw [Bool.not_eq_false] at started
    -- an engine that makes nine tokens, stops and starts again shows none of them
    let made : Made := ⟨fun t => if t = r.2.sample.ts then 9 else 0, fun _ => 0⟩
    have at_start : ∀ p ∈ polls, p.restarted = false → made.before p.sample.ts = 0 := by
      intro p hp running
      apply if_neg
      intro same
      have hr2 : r.2 ∈ polls := (List.mem_filter.mp (mem_of_mem_steps hr).2).1
      have distinct : (polls.map fun p => p.sample.ts).Nodup :=
        List.pairwise_map.mpr (inOrder.imp fun lt => ne_of_lt lt)
      have one : p = r.2 := List.inj_on_of_nodup_map distinct hp hr2 same
      rw [one, started] at running
      cases running
    have unseen : Unseen made polls := ⟨fun _ _ => rfl, at_start⟩
    have few := (h made 0 {} (unused idleSecs) rfl (unseen.tokens inOrder hs linked).symm
      (unused_ok idleSecs)).2
    have nine : 9 ≤ generatedIn made (window polls now idleSecs) := by
      have mem : r.2 ∈ (window polls now idleSecs).tail := (List.of_mem_zip hr).2
      have le := List.single_le_sum (l := (window polls now idleSecs).tail.map fun p => p.made made)
        (fun _ _ => Nat.zero_le _) _ (List.mem_map_of_mem mem)
      have here : r.2.made made = 9 := by
        unfold Scraped.made
        rw [started]
        show (if r.2.sample.ts = r.2.sample.ts then 9 else 0) + 0 = 9
        rw [if_pos rfl]
      rw [here] at le
      exact le
    have own : ownProbeTokens {} now idleSecs = 0 := rfl
    have le : (9 : ℚ) ≤ 8 := by
      calc (9 : ℚ) ≤ (generatedIn made (window polls now idleSecs) : ℚ) := by exact_mod_cast nine
        _ ≤ 0 + counterMarginTokens := by rw [← own]; exact few
        _ = 8 := zero_add _
    exact absurd le (by norm_num)

/-- The gate proves quiet, whatever the engine generates and the probes do, exactly when no step
of its window can be compared, so that it always says no, or when the window is unbroken. -/
theorem idle_gate_proves_quiet_iff (poll : ℤ) {polls : List Scraped} (inOrder : InOrder polls)
    (now idleSecs : ℤ) :
    ProvesQuiet poll polls now idleSecs ↔
      (∀ s ∈ steps (window polls now idleSecs), ¬s.1.Linked s.2) ∨
        Unbroken poll polls now idleSecs := by
  constructor
  · intro h
    by_cases linked : ∃ s ∈ steps (window polls now idleSecs), s.1.Linked s.2
    · obtain ⟨s, hs, link⟩ := linked
      exact Or.inr (h.unbroken inOrder hs link)
    · push Not at linked
      exact Or.inl linked
  · rintro (never | unbroken)
    · intro made c db o _ shown ok
      exact absurd ok (never_ok inOrder never shown)
    · exact unbroken.proves inOrder

/-- A poll that read the counter, of an engine that has been up since the poll before. -/
def scrapedAt (ts : ℤ) : Scraped := ⟨{ ts := ts, metrics := some { countersV := 2 } }, false⟩

/-- A poll whose scrape failed. -/
def failedAt (ts : ℤ) : Scraped := ⟨{ ts := ts }, false⟩

theorem steady_polls_prove_quiet :
    ProvesQuiet 100 [scrapedAt 0, scrapedAt 100, scrapedAt 200, scrapedAt 300] 300 300 := by
  have inOrder : InOrder [scrapedAt 0, scrapedAt 100, scrapedAt 200, scrapedAt 300] := by
    unfold InOrder
    decide
  have all : window [scrapedAt 0, scrapedAt 100, scrapedAt 200, scrapedAt 300] 300 300 =
      [scrapedAt 0, scrapedAt 100, scrapedAt 200, scrapedAt 300] := rfl
  refine (idle_gate_proves_quiet_iff 100 inOrder 300 300).mpr (Or.inr ⟨?_, ?_, ?_⟩)
  · exact ⟨scrapedAt 0, rfl, by decide⟩
  · exact ⟨scrapedAt 300, rfl, by decide⟩
  · rw [all]
    intro s hs
    have link : ∀ t u : ℤ, (scrapedAt t).Linked (scrapedAt u) :=
      fun t u => ⟨_, rfl, _, rfl, rfl⟩
    have list : steps [scrapedAt 0, scrapedAt 100, scrapedAt 200, scrapedAt 300] =
        [(scrapedAt 0, scrapedAt 100), (scrapedAt 100, scrapedAt 200),
          (scrapedAt 200, scrapedAt 300)] := rfl
    rw [list, List.mem_cons, List.mem_cons, List.mem_singleton] at hs
    rcases hs with rfl | rfl | rfl
    · exact ⟨link 0 100, rfl⟩
    · exact ⟨link 100 200, rfl⟩
    · exact ⟨link 200 300, rfl⟩

/-- 500 tokens generated around a scrape that failed are not seen, and the gate says yes. -/
theorem a_failed_scrape_hides_work :
    InOrder [scrapedAt 0, failedAt 100, scrapedAt 200, scrapedAt 300] ∧
      ¬ProvesQuiet 100 [scrapedAt 0, failedAt 100, scrapedAt 200, scrapedAt 300] 300 300 := by
  constructor
  · unfold InOrder
    decide
  · intro h
    let made : Made := ⟨fun t => if t = 100 then 500 else 0, fun _ => 0⟩
    have unseen : some 0 = recentTokensGenerated
        (remembered made 0 [scrapedAt 0, failedAt 100, scrapedAt 200, scrapedAt 300]) {} 300 300 := by
      decide +kernel
    have few := (h made 0 {} (unused 300) rfl unseen (unused_ok 300)).2
    exact absurd few (by decide +kernel)

end Lss.Analysis.IdleWindows
