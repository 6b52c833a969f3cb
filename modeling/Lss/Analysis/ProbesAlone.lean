import Lss.Library.Steps
import Lss.Model.ProbeEvidence
import Mathlib.Tactic.Linarith

/-!
# What a probe that ran alone proves

The evidence about a probe counts who runs, who waits and who has finished. One other request can
hide from all of it: while it still runs it is taken for the probe, which has been counted, and
once it has finished it is taken for the probe, which has not.
-/

set_option autoImplicit false

namespace Lss.Analysis.ProbesAlone

open Lss.Model
open Lss.Library.Steps (sum_eq_zero_iff)

/-! ## Requests in time -/

/-- A request on the engine, with the moments of its life in milliseconds. -/
structure Request where
  /-- when the gateway let it through, if it came that way -/
  admitted : Option ℤ
  arrived : ℤ
  started : ℤ
  finished : ℤ
  prompt : ℕ
  generated : ℕ

namespace Request

structure WellFormed (r : Request) : Prop where
  admitted : ∀ a ∈ r.admitted, a ≤ r.arrived
  waits : r.arrived ≤ r.started
  runs : r.started < r.finished

/-- What the gauge of running requests has of a request. -/
def running (t : ℤ) (r : Request) : ℕ := if r.started ≤ t ∧ t < r.finished then 1 else 0

def queued (t : ℤ) (r : Request) : ℕ := if r.arrived ≤ t ∧ t < r.started then 1 else 0

/-- What a counter has of a request, from when it finishes. -/
def counted (weight : Request → ℕ) (t : ℤ) (r : Request) : ℕ :=
  if r.finished ≤ t then weight r else 0

/-- What the gateway's counter has of a request. -/
def passed (t : ℤ) (r : Request) : ℕ := if r.admitted.any fun a => a ≤ t then 1 else 0

/-- The request is over by one moment or comes after another. -/
def Away (t t' : ℤ) (r : Request) : Prop := r.finished ≤ t ∨ t' < r.arrived

end Request

/-- A quantity of some requests together. -/
def tally (f : Request → ℕ) (rs : List Request) : ℕ := (rs.map f).sum

/-! ## A probe and what is around it -/

/-- A probe: its request and those of others, the reads of the engine before and after it, and
the gateway's. -/
structure Probe where
  own : Request
  others : List Request
  record : ProbeRecord
  ttftBaselineMs : Option ℚ
  maxTtftS : ℚ
  parse : String → Option ℚ
  publicPriority : String
  trustedPriority : String
  kind : Option EngineKind
  /-- the read before the probe -/
  readBefore : ℤ
  pagesBefore : Pages
  before : EngineLoad
  /-- the reads after it, with how long the wait has been -/
  readsAfter : List (ℤ × ℤ × Pages)
  settled : SettleRead
  gateway : Bool
  gateBefore : ℤ
  admittedBefore : Option ℕ
  gateAfter : ℤ
  admittedAfter : Option ℕ
  /-- what the counters started from -/
  requestsBase : ℕ
  promptBase : ℕ
  generatedBase : ℕ
  admittedBase : ℕ

namespace Probe

def all (p : Probe) : List Request := p.own :: p.others

/-- What the engine says. -/
def read (p : Probe) (pages : Pages) : Option EngineLoad :=
  engineLoad p.parse p.publicPriority p.trustedPriority p.kind pages

def settleReads (p : Probe) : List SettleRead :=
  p.readsAfter.map fun r => ⟨r.1, r.2.1, p.read r.2.2⟩

/-- The evidence the collector has about the probe. -/
def seen (p : Probe) : ProbeEvidence :=
  evidence p.gateway p.record p.ttftBaselineMs p.before p.settled.load p.admittedBefore
    p.admittedAfter

/-- Gauges and counters that show exactly the requests of a moment. -/
structure Shows (p : Probe) (t : ℤ) (l : EngineLoad) : Prop where
  running : l.running = tally (Request.running t) p.all
  queue : l.queue = tally (Request.queued t) p.all
  reportsLoad : l.reportsLoad = true
  requests : l.requests =
    some ((p.requestsBase + tally (Request.counted (fun _ => 1) t) p.all : ℕ) : ℚ)
  prompt : l.promptTokens =
    some ((p.promptBase + tally (Request.counted Request.prompt t) p.all : ℕ) : ℚ)
  generated : l.genTokens =
    some ((p.generatedBase + tally (Request.counted Request.generated t) p.all : ℕ) : ℚ)

/-- The reads are exact, and they are made before the probe is sent and after its stream. -/
structure Exact (p : Probe) : Prop where
  wellFormed : ∀ r ∈ p.all, r.WellFormed
  before : p.read p.pagesBefore = some p.before ∧ p.Shows p.readBefore p.before
  sent : p.readBefore < p.own.arrived
  streamed : ∀ r ∈ p.settleReads, p.own.started ≤ r.moment
  after : ∀ r ∈ p.settleReads, ∀ l ∈ r.load, p.Shows r.moment l
  settled : settledLoad p.before p.settleReads = some p.settled
  gateOrder : p.gateBefore ≤ p.gateAfter
  admittedBefore : ∀ n ∈ p.admittedBefore,
    n = p.admittedBase + tally (Request.passed p.gateBefore) p.all
  admittedAfter : ∀ n ∈ p.admittedAfter,
    n = p.admittedBase + tally (Request.passed p.gateAfter) p.all
  admitted : p.gateway = true → p.own.passed p.gateBefore = 0 ∧
    p.own.passed p.gateAfter = if p.record.wasAdmitted then 1 else 0

/-- Nobody else ran between the two reads of the engine. -/
def Alone (p : Probe) : Prop :=
  ∀ r ∈ p.others, ∀ t, p.readBefore ≤ t → t ≤ p.settled.moment →
    ¬(r.started ≤ t ∧ t < r.finished)

/-- The probe started to answer in time. -/
def Prompt (p : Probe) : Prop :=
  p.record.ttftMs.getD f64Max ≤ p.maxTtftS * 1000 ∧
    ∀ idle ∈ p.ttftBaselineMs, 0 < idle →
      p.record.ttftMs.getD f64Max ≤ c1TtftContendedRatio * idle

/-- The gateway let nobody else through between its two reads. -/
def GateSilent (p : Probe) : Prop :=
  p.gateway = true → p.admittedBefore.isSome ∧ p.admittedAfter.isSome ∧
    ∀ r ∈ p.others, ∀ a ∈ r.admitted, ¬(p.gateBefore < a ∧ a ≤ p.gateAfter)

/-- A finished request that can be taken for the probe. -/
def Passes (p : Probe) (r : Request) : Prop :=
  (r.prompt : ℚ) ≤ probePromptMarginTokens ∧
    ownTokensOnly r.generated ((p.record.tokens.getD 0 : ℕ) : ℚ) = true

/-- Exactly one other request ran between the reads and hid: it still ran at the second one while
the probe had been counted, or it had been counted while the probe still ran. -/
def OneHid (p : Probe) : Prop :=
  ∃ l₁ r l₂, p.others = l₁ ++ r :: l₂ ∧
    p.readBefore < r.arrived ∧ r.started ≤ p.settled.moment ∧
    (∀ x ∈ l₁ ++ l₂, x.Away p.readBefore p.settled.moment) ∧
    ((p.own.finished ≤ p.settled.moment ∧ p.settled.moment < r.finished ∧ p.Passes p.own) ∨
      (p.settled.moment < p.own.finished ∧ r.finished ≤ p.settled.moment ∧ p.Passes r))

end Probe

/-! ## What the checks say -/

theorem validate_eq_ranAlone {e : ProbeEvidence} {maxTtftS : ℚ} :
    validate e maxTtftS = .ok .ranAlone ↔
      checkBefore e = none ∧ checkTtft e maxTtftS = none ∧ checkRequests e = none ∧
        checkPrompt e = none ∧ checkTokens e = none ∧ checkAfter e = .ok none ∧
        checkGate e = none := by
  unfold validate
  constructor
  · intro h
    split at h
    · cases h
    · rename_i passed
      rw [Option.or_eq_none_iff, Option.or_eq_none_iff, Option.or_eq_none_iff,
        Option.or_eq_none_iff] at passed
      split at h
      · cases h
      · rename_i caveat after
        split at h
        · cases h
        · rename_i gate
          cases caveat with
          | none => exact ⟨passed.1, passed.2.1, passed.2.2.1, passed.2.2.2.1, passed.2.2.2.2,
              after, gate⟩
          | some why => cases h
  · rintro ⟨h₁, h₂, h₃, h₄, h₅, h₆, h₇⟩
    rw [h₁, h₂, h₃, h₄, h₅, h₆, h₇]
    rfl

/-! ## Tallies -/

theorem tally_append_cons (f : Request → ℕ) (own r : Request) (l₁ l₂ : List Request) :
    tally f (own :: (l₁ ++ r :: l₂)) = f own + (f r + tally f (l₁ ++ l₂)) := by
  unfold tally
  rw [List.map_cons, List.sum_cons, List.map_append, List.sum_append, List.map_cons,
    List.sum_cons, List.map_append, List.sum_append]
  omega

theorem tally_eq_zero {f : Request → ℕ} {rs : List Request} :
    tally f rs = 0 ↔ ∀ r ∈ rs, f r = 0 :=
  sum_eq_zero_iff fun _ _ => Nat.zero_le _

theorem tally_congr {f g : Request → ℕ} {rs : List Request} (h : ∀ r ∈ rs, f r = g r) :
    tally f rs = tally g rs := by
  unfold tally
  rw [List.map_congr_left h]

theorem tally_mono {f g : Request → ℕ} {rs : List Request} (h : ∀ r ∈ rs, f r ≤ g r) :
    tally f rs ≤ tally g rs := List.sum_le_sum h

/-- Two tallies of which one is never below the other are one only when they agree on each. -/
theorem tally_eq_iff {f g : Request → ℕ} {rs : List Request} (h : ∀ r ∈ rs, f r ≤ g r) :
    tally f rs = tally g rs ↔ ∀ r ∈ rs, f r = g r := by
  constructor
  · intro eq
    induction rs with
    | nil => exact fun r hr => nomatch hr
    | cons r rs ih =>
        have head := h r List.mem_cons_self
        have rest := tally_mono fun x hx => h x (List.mem_cons_of_mem r hx)
        have split : ∀ k : Request → ℕ, tally k (r :: rs) = k r + tally k rs :=
          fun _ => List.sum_cons
        rw [split f, split g] at eq
        intro x hx
        cases List.mem_cons.mp hx with
        | inl e =>
            rw [e]
            omega
        | inr hx => exact ih (fun y hy => h y (List.mem_cons_of_mem r hy)) (by omega) x hx
  · exact tally_congr

namespace Request

theorem counted_mono (weight : Request → ℕ) {t t' : ℤ} (h : t ≤ t') (r : Request) :
    counted weight t r ≤ counted weight t' r := by
  unfold counted
  split
  · rename_i done
    rw [if_pos (le_trans done h)]
  · exact Nat.zero_le _

theorem passed_mono {t t' : ℤ} (h : t ≤ t') (r : Request) : passed t r ≤ passed t' r := by
  unfold passed
  cases r.admitted with
  | none => exact le_refl _
  | some a =>
      simp only [Option.any_some, decide_eq_true_eq]
      split
      · rename_i through
        rw [if_pos (le_trans through h)]
      · exact Nat.zero_le _

theorem passed_eq_iff {t t' : ℤ} (h : t ≤ t') (r : Request) :
    passed t r = passed t' r ↔ ∀ a ∈ r.admitted, ¬(t < a ∧ a ≤ t') := by
  unfold passed
  cases ha : r.admitted with
  | none => simp
  | some a =>
      have late : (∀ x ∈ some a, ¬(t < x ∧ x ≤ t')) ↔ ¬(t < a ∧ a ≤ t') :=
        ⟨fun h => h a rfl, fun h x hx => by cases hx; exact h⟩
      rw [late]
      simp only [Option.any_some, decide_eq_true_eq]
      by_cases early : a ≤ t
      · rw [if_pos early, if_pos (le_trans early h)]
        exact ⟨fun _ now => absurd now.1 (not_lt.mpr early), fun _ => rfl⟩
      · rw [if_neg early]
        by_cases now : a ≤ t'
        · rw [if_pos now]
          exact ⟨(fun h => nomatch h), fun h => absurd ⟨not_le.mp early, now⟩ h⟩
        · rw [if_neg now]
          exact ⟨fun _ h => now h.2, fun _ => rfl⟩

/-- A request that is away leaves no trace between two moments. -/
theorem Away.traceless {t t' : ℤ} (le : t ≤ t') {r : Request} (wf : r.WellFormed)
    (away : r.Away t t') :
    running t r = 0 ∧ queued t r = 0 ∧ running t' r = 0 ∧ queued t' r = 0 ∧
      ∀ weight, counted weight t r = counted weight t' r := by
  obtain ⟨_, waits, runs⟩ := wf
  unfold running queued counted
  refine ⟨?_, ?_, ?_, ?_, ?_⟩
  · apply if_neg
    unfold Away at away
    omega
  · apply if_neg
    unfold Away at away
    omega
  · apply if_neg
    unfold Away at away
    omega
  · apply if_neg
    unfold Away at away
    omega
  · intro weight
    unfold Away at away
    split_ifs
    · rfl
    · omega
    · omega
    · rfl

/-- Only a request that is away leaves no trace. -/
theorem away_of_traceless {t t' : ℤ} {r : Request} (wf : r.WellFormed)
    (before : running t r = 0 ∧ queued t r = 0) (after : running t' r = 0 ∧ queued t' r = 0)
    (uncounted : counted (fun _ => 1) t r = counted (fun _ => 1) t' r) : r.Away t t' := by
  obtain ⟨_, waits, runs⟩ := wf
  unfold running queued at before after
  unfold counted at uncounted
  unfold Away
  have idle : ∀ c : Prop, [Decidable c] → (if c then 1 else 0) = 0 → ¬c := by
    intro c _ h hc
    rw [if_pos hc] at h
    cases h
  have runs_before := idle _ before.1
  have waits_before := idle _ before.2
  have runs_after := idle _ after.1
  have waits_after := idle _ after.2
  split_ifs at uncounted <;> omega

end Request

/-! ## The checks of exact evidence -/

namespace Probe.Exact

variable {p : Probe} (exact : p.Exact)

include exact

theorem settled_mem : p.settled ∈ p.settleReads := List.mem_of_find?_eq_some exact.settled

theorem own_started : p.own.started ≤ p.settled.moment :=
  exact.streamed p.settled exact.settled_mem

theorem before_lt_after : p.readBefore < p.settled.moment := by
  have own := exact.wellFormed p.own List.mem_cons_self
  have sent := exact.sent
  have started := exact.own_started
  have waits := own.waits
  omega

theorem checkBefore_iff : checkBefore p.seen = none ↔
    tally (Request.running p.readBefore) p.all = 0 ∧
      tally (Request.queued p.readBefore) p.all = 0 := by
  have running : p.seen.runningBefore = _ := exact.before.2.running
  have queue : p.seen.queueBefore = _ := exact.before.2.queue
  unfold checkBefore
  rw [running, queue]
  simp only [Nat.cast_pos]
  constructor
  · intro h
    split at h
    · cases h
    · omega
  · intro h
    rw [if_neg (by omega)]

omit exact in
theorem checkTtft_iff : checkTtft p.seen p.maxTtftS = none ↔ p.Prompt := by
  have ttft : p.seen.ttftMs = p.record.ttftMs.getD f64Max := rfl
  have baseline : p.seen.ttftBaselineMs = p.ttftBaselineMs := rfl
  unfold checkTtft Probe.Prompt
  rw [ttft, baseline]
  by_cases slow : p.maxTtftS * 1000 < p.record.ttftMs.getD f64Max
  · rw [if_pos slow]
    constructor
    · exact fun h => nomatch h
    · exact fun h => absurd slow (not_lt.mpr h.1)
  · rw [if_neg slow]
    cases p.ttftBaselineMs with
    | none =>
        constructor
        · exact fun _ => ⟨not_lt.mp slow, fun idle h => nomatch h⟩
        · exact fun _ => rfl
    | some idle =>
        by_cases pos : 0 < idle
        · rw [Option.filter_some_pos (by simpa using pos), Option.bind_some]
          by_cases contended : c1TtftContendedRatio * idle < p.record.ttftMs.getD f64Max
          · rw [if_pos contended]
            constructor
            · exact fun h => nomatch h
            · exact fun h => absurd contended (not_lt.mpr (h.2 idle rfl pos))
          · rw [if_neg contended]
            refine ⟨fun _ => ⟨not_lt.mp slow, ?_⟩, fun _ => rfl⟩
            intro i hi _
            cases hi
            exact not_lt.mp contended
        · rw [Option.filter_some_neg (by simpa using pos), Option.bind_none]
          refine ⟨fun _ => ⟨not_lt.mp slow, ?_⟩, fun _ => rfl⟩
          intro i hi ipos
          cases hi
          exact absurd ipos pos

/-- What a counter grew by between the two reads. -/
theorem growth (base : ℕ) (weight : Request → ℕ) :
    max (((base + tally (Request.counted weight p.settled.moment) p.all : ℕ) : ℚ) -
        ((base + tally (Request.counted weight p.readBefore) p.all : ℕ) : ℚ)) 0 =
      ((tally (Request.counted weight p.settled.moment) p.all -
        tally (Request.counted weight p.readBefore) p.all : ℕ) : ℚ) := by
  have mono : tally (Request.counted weight p.readBefore) p.all ≤
      tally (Request.counted weight p.settled.moment) p.all :=
    tally_mono fun r _ => Request.counted_mono weight (le_of_lt exact.before_lt_after) r
  rw [Nat.cast_sub mono, Nat.cast_add, Nat.cast_add, add_sub_add_left_eq_sub, max_eq_left]
  rw [sub_nonneg]
  exact_mod_cast mono

variable {l : EngineLoad} (read : p.settled.load = some l)

include read

theorem shows : p.Shows p.settled.moment l := exact.after p.settled exact.settled_mem l read

theorem checkRequests_iff : checkRequests p.seen = none ↔
    tally (Request.counted (fun _ => 1) p.settled.moment) p.all <
      tally (Request.counted (fun _ => 1) p.readBefore) p.all + 2 := by
  have before : p.seen.requestsBefore = _ := exact.before.2.requests
  have after : p.seen.requestsAfter =
      some ((p.requestsBase + tally (Request.counted (fun _ => 1) p.settled.moment) p.all : ℕ) :
        ℚ) := by
    show p.settled.load.bind EngineLoad.requests = _
    rw [read, Option.bind_some]
    exact (exact.shows read).requests
  unfold checkRequests
  rw [before, after, Option.bind_some, Option.bind_some, exact.growth]
  dsimp only
  have le_iff : (1 : ℚ) ≤ ((tally (Request.counted (fun _ => 1) p.settled.moment) p.all -
        tally (Request.counted (fun _ => 1) p.readBefore) p.all : ℕ) : ℚ) - 1 ↔
      2 ≤ tally (Request.counted (fun _ => 1) p.settled.moment) p.all -
        tally (Request.counted (fun _ => 1) p.readBefore) p.all := by
    rw [le_sub_iff_add_le, one_add_one_eq_two]
    exact Nat.ofNat_le_cast
  split
  · rename_i others
    have two := le_iff.mp others
    constructor
    · exact fun h => nomatch h
    · intro h
      omega
  · rename_i few
    have one := mt le_iff.mpr few
    constructor
    · intro _
      omega
    · exact fun _ => rfl

theorem checkPrompt_iff : checkPrompt p.seen = none ↔
    ((tally (Request.counted Request.prompt p.settled.moment) p.all -
      tally (Request.counted Request.prompt p.readBefore) p.all : ℕ) : ℚ) ≤
        probePromptMarginTokens := by
  have before : p.seen.promptTokensBefore = _ := exact.before.2.prompt
  have after : p.seen.promptTokensAfter =
      some ((p.promptBase + tally (Request.counted Request.prompt p.settled.moment) p.all : ℕ) :
        ℚ) := by
    show p.settled.load.bind EngineLoad.promptTokens = _
    rw [read, Option.bind_some]
    exact (exact.shows read).prompt
  unfold checkPrompt
  rw [before, after, Option.bind_some, Option.bind_some, exact.growth]
  dsimp only
  split
  · rename_i much
    exact ⟨(fun h => nomatch h), fun h => absurd much (not_lt.mpr h)⟩
  · rename_i few
    exact ⟨fun _ => not_lt.mp few, fun _ => rfl⟩

theorem checkTokens_iff : checkTokens p.seen = none ↔
    ownTokensOnly ((tally (Request.counted Request.generated p.settled.moment) p.all -
      tally (Request.counted Request.generated p.readBefore) p.all : ℕ) : ℚ)
        ((p.record.tokens.getD 0 : ℕ) : ℚ) = true := by
  have before : p.seen.genTokensBefore = _ := exact.before.2.generated
  have after : p.seen.genTokensAfter =
      some ((p.generatedBase + tally (Request.counted Request.generated p.settled.moment) p.all :
        ℕ) : ℚ) := by
    show p.settled.load.bind EngineLoad.genTokens = _
    rw [read, Option.bind_some]
    exact (exact.shows read).generated
  have own : p.seen.probeTokens = ((p.record.tokens.getD 0 : ℕ) : ℚ) := rfl
  unfold checkTokens
  rw [before, after, Option.bind_some, Option.bind_some, exact.growth, own]
  dsimp only
  split
  · rename_i ours
    exact ⟨fun _ => ours, fun _ => rfl⟩
  · rename_i theirs
    exact ⟨(fun h => nomatch h), fun h => absurd h theirs⟩

theorem checkAfter_iff : checkAfter p.seen = .ok none ↔
    tally (Request.running p.settled.moment) p.all ≤ 1 ∧
      tally (Request.queued p.settled.moment) p.all = 0 := by
  have reports := (exact.shows read).reportsLoad
  have running : p.seen.runningAfter =
      some ((tally (Request.running p.settled.moment) p.all : ℕ) : ℚ) := by
    show (p.settled.load.filter EngineLoad.reportsLoad).map EngineLoad.running = _
    rw [read, Option.filter_some_pos reports, Option.map_some, (exact.shows read).running]
  have queue : p.seen.queueAfter =
      some ((tally (Request.queued p.settled.moment) p.all : ℕ) : ℚ) := by
    show (p.settled.load.filter EngineLoad.reportsLoad).map EngineLoad.queue = _
    rw [read, Option.filter_some_pos reports, Option.map_some, (exact.shows read).queue]
  unfold checkAfter
  rw [running, queue]
  dsimp only
  have busy : (1 : ℚ) < ((tally (Request.running p.settled.moment) p.all : ℕ) : ℚ) ↔
      1 < tally (Request.running p.settled.moment) p.all := by
    exact_mod_cast Iff.rfl
  simp only [busy, Nat.cast_pos]
  split
  · constructor
    · exact fun h => nomatch h
    · intro h
      omega
  · constructor
    · intro _
      omega
    · exact fun _ => rfl

omit read in
theorem checkGate_iff : checkGate p.seen = none ↔ p.GateSilent := by
  have gateway : p.seen.gateway = p.gateway := rfl
  have before : p.seen.admittedBefore = p.admittedBefore := rfl
  have after : p.seen.admittedAfter = p.admittedAfter := rfl
  have own : p.seen.probeAdmitted = p.record.wasAdmitted := rfl
  unfold checkGate Probe.GateSilent
  rw [gateway, before, after, own]
  cases hg : p.gateway with
  | false => exact ⟨fun _ h => (nomatch h), fun _ => rfl⟩
  | true =>
      rw [if_neg (by decide)]
      cases hb : p.admittedBefore with
      | none => exact ⟨(fun h => nomatch h), fun h => absurd (h rfl).1 (by decide)⟩
      | some b =>
          cases ha : p.admittedAfter with
          | none => exact ⟨(fun h => nomatch h), fun h => absurd (h rfl).2.1 (by decide)⟩
          | some a =>
              have b_eq := exact.admittedBefore b hb
              have a_eq := exact.admittedAfter a ha
              obtain ⟨own_before, own_after⟩ := exact.admitted hg
              have split : ∀ t, tally (Request.passed t) p.all =
                  p.own.passed t + tally (Request.passed t) p.others := fun _ => List.sum_cons
              rw [split, own_before] at b_eq
              rw [split, own_after] at a_eq
              have mono : tally (Request.passed p.gateBefore) p.others ≤
                  tally (Request.passed p.gateAfter) p.others :=
                tally_mono fun r _ => Request.passed_mono exact.gateOrder r
              have silent : tally (Request.passed p.gateBefore) p.others =
                    tally (Request.passed p.gateAfter) p.others ↔
                  ∀ r ∈ p.others, ∀ a ∈ r.admitted, ¬(p.gateBefore < a ∧ a ≤ p.gateAfter) := by
                rw [tally_eq_iff fun r _ => Request.passed_mono exact.gateOrder r]
                apply forall_congr'
                intro r
                apply imp_congr_right
                intro _
                exact Request.passed_eq_iff exact.gateOrder r
              dsimp only
              rw [← own_after] at a_eq ⊢
              rw [if_neg (by omega)]
              by_cases same : a - b - p.own.passed p.gateAfter = 0
              · rw [if_pos same]
                exact ⟨fun _ _ => ⟨rfl, rfl, silent.mp (by omega)⟩, fun _ => rfl⟩
              · rw [if_neg same]
                refine ⟨(fun h => nomatch h), fun h => absurd ?_ same⟩
                have quiet := silent.mpr (h rfl).2.2
                omega

end Probe.Exact

/-! ## Who hid -/

namespace Probe.Exact

variable {p : Probe} (exact : p.Exact) {l₁ l₂ : List Request} {r : Request}
  (others : p.others = l₁ ++ r :: l₂)

include exact others

omit exact in
/-- The quantities of all are those of the probe, of one other request and of the rest. -/
theorem tally_all (f : Request → ℕ) : tally f p.all = f p.own + (f r + tally f (l₁ ++ l₂)) := by
  unfold Probe.all
  rw [others]
  exact tally_append_cons f p.own r l₁ l₂

theorem rest_wellFormed : ∀ x ∈ l₁ ++ l₂, x.WellFormed := by
  intro x hx
  apply exact.wellFormed
  unfold Probe.all
  rw [others]
  apply List.mem_cons_of_mem
  cases List.mem_append.mp hx with
  | inl h => exact List.mem_append_left _ h
  | inr h => exact List.mem_append_right _ (List.mem_cons_of_mem r h)

theorem r_wellFormed : r.WellFormed := by
  apply exact.wellFormed
  unfold Probe.all
  rw [others]
  exact List.mem_cons_of_mem _ (List.mem_append_right _ List.mem_cons_self)

omit others in
/-- What the probe's own request leaves at the two reads. -/
theorem own_trace : p.own.running p.readBefore = 0 ∧ p.own.queued p.readBefore = 0 ∧
    p.own.queued p.settled.moment = 0 ∧
    (p.own.running p.settled.moment = if p.own.finished ≤ p.settled.moment then 0 else 1) ∧
    ∀ weight, p.own.counted weight p.readBefore = 0 := by
  have wf := exact.wellFormed p.own List.mem_cons_self
  have sent := exact.sent
  have started := exact.own_started
  have waits := wf.waits
  have runs := wf.runs
  unfold Request.running Request.queued Request.counted
  refine ⟨if_neg (by omega), if_neg (by omega), if_neg (by omega), ?_, ?_⟩
  · split_ifs <;> omega
  · intro weight
    exact if_neg (by omega)

/-- What the evidence of a read shows is what the probe and one other request leave, when the
rest is away. -/
theorem tally_of_away
    (away : ∀ x ∈ l₁ ++ l₂, x.Away p.readBefore p.settled.moment) (weight : Request → ℕ) :
    tally (Request.counted weight p.settled.moment) p.all -
        tally (Request.counted weight p.readBefore) p.all =
      p.own.counted weight p.settled.moment + r.counted weight p.settled.moment -
        r.counted weight p.readBefore := by
  have rest := tally_congr fun x hx =>
    ((away x hx).traceless (le_of_lt exact.before_lt_after)
      (exact.rest_wellFormed others x hx)).2.2.2.2 weight
  rw [tally_all others, tally_all others, exact.own_trace.2.2.2.2 weight]
  omega

/-- The evidence clears a probe next to which another request ran only when that one hid. -/
theorem hid_of_ranAlone {l : EngineLoad} (read : p.settled.load = some l)
    (ranAlone : validate p.seen p.maxTtftS = .ok .ranAlone) {t : ℤ} (from_before : p.readBefore ≤ t)
    (to_after : t ≤ p.settled.moment) (ran : r.started ≤ t ∧ t < r.finished) : p.OneHid := by
  obtain ⟨before, _, requests, prompt, tokens, after, _⟩ := validate_eq_ranAlone.mp ranAlone
  rw [exact.checkBefore_iff, tally_all others, tally_all others] at before
  rw [exact.checkRequests_iff read, tally_all others, tally_all others] at requests
  rw [exact.checkPrompt_iff read] at prompt
  rw [exact.checkTokens_iff read] at tokens
  rw [exact.checkAfter_iff read, tally_all others, tally_all others] at after
  obtain ⟨_, _, _, own_runs, own_uncounted⟩ := exact.own_trace
  have wf := exact.r_wellFormed others
  have le := le_of_lt exact.before_lt_after
  have mono := tally_mono fun x (_ : x ∈ l₁ ++ l₂) => Request.counted_mono (fun _ => 1) le x
  rw [own_uncounted] at requests
  rw [own_runs] at after
  have idle_before : tally (Request.running p.readBefore) (l₁ ++ l₂) = 0 ∧
      tally (Request.queued p.readBefore) (l₁ ++ l₂) = 0 := by omega
  have r_before : r.running p.readBefore = 0 ∧ r.queued p.readBefore = 0 := by omega
  have arrived : p.readBefore < r.arrived := by
    unfold Request.running Request.queued at r_before
    rw [ite_eq_right_iff, ite_eq_right_iff] at r_before
    by_contra early
    have waits := wf.waits
    omega
  -- the one that ran, or the probe, is all that the read after it may show
  have rest_away : tally (Request.running p.settled.moment) (l₁ ++ l₂) = 0 →
      tally (Request.counted (fun _ => 1) p.readBefore) (l₁ ++ l₂) =
        tally (Request.counted (fun _ => 1) p.settled.moment) (l₁ ++ l₂) →
      ∀ x ∈ l₁ ++ l₂, x.Away p.readBefore p.settled.moment := by
    intro idle_after uncounted x hx
    have unqueued : tally (Request.queued p.settled.moment) (l₁ ++ l₂) = 0 := by omega
    exact Request.away_of_traceless (exact.rest_wellFormed others x hx)
      ⟨tally_eq_zero.mp idle_before.1 x hx, tally_eq_zero.mp idle_before.2 x hx⟩
      ⟨tally_eq_zero.mp idle_after x hx, tally_eq_zero.mp unqueued x hx⟩
      ((tally_eq_iff fun y _ => Request.counted_mono (fun _ => 1) le y).mp uncounted x hx)
  refine ⟨l₁, r, l₂, others, arrived, by omega, ?_⟩
  by_cases still : p.settled.moment < r.finished
  · have runs : r.running p.settled.moment = 1 := if_pos ⟨by omega, still⟩
    have uncounted : ∀ weight, r.counted weight p.settled.moment = 0 ∧
        r.counted weight p.readBefore = 0 :=
      fun weight => ⟨if_neg (by omega), if_neg (by omega)⟩
    rw [runs] at after
    have own_done : p.own.finished ≤ p.settled.moment := by
      by_contra unfinished
      rw [if_neg unfinished] at after
      omega
    have own_counted : ∀ weight, p.own.counted weight p.settled.moment = weight p.own :=
      fun weight => if_pos own_done
    rw [own_counted, (uncounted _).1, (uncounted _).2] at requests
    have away := rest_away (by omega) (by omega)
    refine ⟨away, Or.inl ⟨own_done, still, ?_, ?_⟩⟩
    · rw [exact.tally_of_away others away, own_counted, (uncounted _).1, (uncounted _).2] at prompt
      exact prompt
    · rw [exact.tally_of_away others away, own_counted, (uncounted _).1, (uncounted _).2] at tokens
      exact tokens
  · have r_counted : ∀ weight, r.counted weight p.settled.moment = weight r ∧
        r.counted weight p.readBefore = 0 :=
      fun weight => ⟨if_pos (by omega), if_neg (by omega)⟩
    rw [(r_counted _).1, (r_counted _).2] at requests
    have own_runs_on : p.settled.moment < p.own.finished := by
      by_contra done
      have own_counted : p.own.counted (fun _ => 1) p.settled.moment = 1 := if_pos (by omega)
      omega
    have own_unfinished : ∀ weight, p.own.counted weight p.settled.moment = 0 :=
      fun weight => if_neg (by omega)
    rw [own_unfinished] at requests
    rw [if_neg (by omega)] at after
    have away := rest_away (by omega) (by omega)
    refine ⟨away, Or.inr ⟨own_runs_on, by omega, ?_, ?_⟩⟩
    · rw [exact.tally_of_away others away, own_unfinished, (r_counted _).1, (r_counted _).2,
        Nat.zero_add, Nat.sub_zero] at prompt
      exact prompt
    · rw [exact.tally_of_away others away, own_unfinished, (r_counted _).1, (r_counted _).2,
        Nat.zero_add, Nat.sub_zero] at tokens
      exact tokens

/-- The evidence clears a probe next to which one other request hid, when the probe was prompt and
the gateway let nobody else through. -/
theorem ranAlone_of_hid {l : EngineLoad} (read : p.settled.load = some l) (inTime : p.Prompt)
    (silent : p.GateSilent) (arrived : p.readBefore < r.arrived)
    (started : r.started ≤ p.settled.moment)
    (away : ∀ x ∈ l₁ ++ l₂, x.Away p.readBefore p.settled.moment)
    (hid : (p.own.finished ≤ p.settled.moment ∧ p.settled.moment < r.finished ∧ p.Passes p.own) ∨
      (p.settled.moment < p.own.finished ∧ r.finished ≤ p.settled.moment ∧ p.Passes r)) :
    validate p.seen p.maxTtftS = .ok .ranAlone := by
  obtain ⟨own_idle, own_unqueued, own_unqueued', own_runs, own_uncounted⟩ := exact.own_trace
  have wf := exact.r_wellFormed others
  have waits := wf.waits
  have le := le_of_lt exact.before_lt_after
  have traceless := fun x hx => (away x hx).traceless le (exact.rest_wellFormed others x hx)
  have rest_before : tally (Request.running p.readBefore) (l₁ ++ l₂) = 0 ∧
      tally (Request.queued p.readBefore) (l₁ ++ l₂) = 0 :=
    ⟨tally_eq_zero.mpr fun x hx => (traceless x hx).1,
      tally_eq_zero.mpr fun x hx => (traceless x hx).2.1⟩
  have rest_after : tally (Request.running p.settled.moment) (l₁ ++ l₂) = 0 ∧
      tally (Request.queued p.settled.moment) (l₁ ++ l₂) = 0 :=
    ⟨tally_eq_zero.mpr fun x hx => (traceless x hx).2.2.1,
      tally_eq_zero.mpr fun x hx => (traceless x hx).2.2.2.1⟩
  have r_before : r.running p.readBefore = 0 ∧ r.queued p.readBefore = 0 :=
    ⟨if_neg (by omega), if_neg (by omega)⟩
  have r_unqueued : r.queued p.settled.moment = 0 := if_neg (by omega)
  have r_uncounted : ∀ weight, r.counted weight p.readBefore = 0 := fun weight => by
    have runs := wf.runs
    exact if_neg (by omega)
  -- which of the two was counted, and which is still shown as running
  have shown : p.own.running p.settled.moment + r.running p.settled.moment ≤ 1 ∧
      ∃ q, p.Passes q ∧ ∀ weight : Request → ℕ,
        p.own.counted weight p.settled.moment + r.counted weight p.settled.moment = weight q := by
    rcases hid with ⟨own_done, still, passes⟩ | ⟨own_runs_on, done, passes⟩
    · have runs : r.running p.settled.moment = 1 := if_pos ⟨started, still⟩
      rw [own_runs, if_pos own_done, runs]
      refine ⟨le_refl 1, p.own, passes, ?_⟩
      intro weight
      have own_counted : p.own.counted weight p.settled.moment = weight p.own := if_pos own_done
      have uncounted : r.counted weight p.settled.moment = 0 := if_neg (by omega)
      rw [own_counted, uncounted, Nat.add_zero]
    · have idle : r.running p.settled.moment = 0 := if_neg (by omega)
      rw [own_runs, if_neg (by omega), idle]
      refine ⟨le_refl 1, r, passes, ?_⟩
      intro weight
      have own_unfinished : p.own.counted weight p.settled.moment = 0 := if_neg (by omega)
      have counted : r.counted weight p.settled.moment = weight r := if_pos done
      rw [own_unfinished, counted, Nat.zero_add]
  obtain ⟨one, q, ⟨prompt, tokens⟩, weights⟩ := shown
  have growth : ∀ weight : Request → ℕ, tally (Request.counted weight p.settled.moment) p.all -
      tally (Request.counted weight p.readBefore) p.all = weight q := by
    intro weight
    rw [exact.tally_of_away others away, r_uncounted, weights, Nat.sub_zero]
  refine validate_eq_ranAlone.mpr ⟨?_, checkTtft_iff.mpr inTime, ?_, ?_, ?_, ?_,
    exact.checkGate_iff.mpr silent⟩
  · rw [exact.checkBefore_iff, tally_all others, tally_all others]
    omega
  · have one_counted := growth fun _ => 1
    rw [exact.checkRequests_iff read]
    omega
  · rw [exact.checkPrompt_iff read, growth]
    exact prompt
  · rw [exact.checkTokens_iff read, growth]
    exact tokens
  · rw [exact.checkAfter_iff read, tally_all others, tally_all others]
    omega

end Probe.Exact

/-! ## The claim -/

/-- Without an answer after the probe nothing is proved. -/
theorem read_of_ranAlone {p : Probe} (ranAlone : validate p.seen p.maxTtftS = .ok .ranAlone) :
    ∃ l, p.settled.load = some l := by
  obtain ⟨_, _, _, _, _, after, _⟩ := validate_eq_ranAlone.mp ranAlone
  cases hl : p.settled.load with
  | some l => exact ⟨l, rfl⟩
  | none =>
      unfold Probe.seen evidence at after
      rw [hl] at after
      cases after

/-- A probe said to have run alone ran alone, exactly unless the engine answered after it, it was
prompt, the gateway let nobody else through, and exactly one other request ran next to it: one
that still ran when the probe had been counted, or one that was counted in its place. -/
theorem ran_alone_iff {p : Probe} (exact : p.Exact) :
    (validate p.seen p.maxTtftS = .ok .ranAlone → p.Alone) ↔
      ¬(p.settled.load.isSome ∧ p.Prompt ∧ p.GateSilent ∧ p.OneHid) := by
  constructor
  · rintro alone ⟨answered, inTime, silent, l₁, r, l₂, others, arrived, started, away, hid⟩
    obtain ⟨l, read⟩ := Option.isSome_iff_exists.mp answered
    have wf := exact.r_wellFormed others
    have waits := wf.waits
    have mem : r ∈ p.others := by
      rw [others]
      exact List.mem_append_right _ List.mem_cons_self
    exact alone (exact.ranAlone_of_hid others read inTime silent arrived started away hid) r mem
      r.started (by omega) started ⟨le_refl _, wf.runs⟩
  · intro seen ranAlone r hr t from_before to_after ran
    obtain ⟨l, read⟩ := read_of_ranAlone ranAlone
    obtain ⟨l₁, l₂, others⟩ := List.append_of_mem hr
    obtain ⟨_, inTime, _, _, _, _, silent⟩ := validate_eq_ranAlone.mp ranAlone
    exact seen ⟨by rw [read]; rfl, Probe.Exact.checkTtft_iff.mp inTime,
      exact.checkGate_iff.mp silent,
      exact.hid_of_ranAlone others read ranAlone from_before to_after ran⟩

/-- A page of vLLM. -/
def vllmPage (running requests prompt generated : ℚ) : Pages :=
  { modelOk := true
    metrics := some [⟨"vllm:num_requests_running", [], running⟩,
      ⟨"vllm:num_requests_waiting", [], 0⟩, ⟨"vllm:request_success_total", [], requests⟩,
      ⟨"vllm:prompt_tokens_total", [], prompt⟩,
      ⟨"vllm:generation_tokens_total", [], generated⟩] }

/-- What the engine says on such a page. -/
def vllmLoad (running requests prompt generated : ℚ) : EngineLoad :=
  ⟨running, 0, true, some generated, some requests, some prompt⟩

/-- A probe of 128 tokens on vLLM without a gateway, and what runs after it. -/
def probeBeside (others : List Request) (running : ℚ) : Probe where
  own := ⟨none, 100, 110, 1000, 20, 128⟩
  others := others
  record := ⟨0, "ok", some 140, some 128, some 128, "", some 200, true, none, false⟩
  ttftBaselineMs := none
  maxTtftS := 3
  parse := fun _ => none
  publicPriority := "0"
  trustedPriority := "10"
  kind := some .vllm
  readBefore := 0
  pagesBefore := vllmPage 0 10 1000 5000
  before := vllmLoad 0 10 1000 5000
  readsAfter := [(1100, 100, vllmPage running 11 1020 5128)]
  settled := ⟨1100, 100, some (vllmLoad running 11 1020 5128)⟩
  gateway := false
  gateBefore := 0
  admittedBefore := none
  gateAfter := 1200
  admittedAfter := none
  requestsBase := 10
  promptBase := 1000
  generatedBase := 5000
  admittedBase := 0

/-- Somebody else's request that starts after the probe and goes on for a long time. -/
def stranger : Request := ⟨none, 200, 210, 9000, 500, 700⟩

theorem read_vllmPage (running requests prompt generated : ℚ) :
    engineLoad (fun _ => none) "0" "10" (some .vllm)
        (vllmPage running requests prompt generated) =
      some (vllmLoad running requests prompt generated) := by
  simp [engineLoad, vllmPage, vllmLoad, scrape, Vllm.scrape, Vllm.parseMetrics, familySum]

theorem exact_of_shows {others : List Request} {running : ℚ}
    (wellFormed : ∀ r ∈ others, r.WellFormed)
    (before : (probeBeside others running).Shows 0 (vllmLoad 0 10 1000 5000))
    (after : (probeBeside others running).Shows 1100 (vllmLoad running 11 1020 5128)) :
    (probeBeside others running).Exact where
  wellFormed := by
    intro r hr
    cases List.mem_cons.mp hr with
    | inl h =>
        rw [h]
        refine ⟨fun a ha => (nomatch ha), ?_, ?_⟩
        · show (100 : ℤ) ≤ 110
          omega
        · show (110 : ℤ) < 1000
          omega
    | inr h => exact wellFormed r h
  before := ⟨read_vllmPage 0 10 1000 5000, before⟩
  sent := by
    show (0 : ℤ) < 100
    omega
  streamed := by
    intro r hr
    rw [List.mem_singleton.mp hr]
    show (110 : ℤ) ≤ 1100
    omega
  after := by
    intro r hr l hl
    rw [List.mem_singleton.mp hr] at hl ⊢
    cases (read_vllmPage running 11 1020 5128).symm.trans hl
    exact after
  settled := by
    have reads : (probeBeside others running).settleReads =
        [⟨1100, 100, some (vllmLoad running 11 1020 5128)⟩] :=
      congrArg (fun load => [SettleRead.mk 1100 100 load]) (read_vllmPage running 11 1020 5128)
    have done : counted (vllmLoad 0 10 1000 5000) (some (vllmLoad running 11 1020 5128)) = true := by
      show decide ((1 : ℚ) ≤ 11 - 10) = true
      norm_num
    rw [reads]
    exact List.find?_cons_of_pos (by
      show (counted (vllmLoad 0 10 1000 5000) (some (vllmLoad running 11 1020 5128)) || _) = true
      rw [done, Bool.true_or])
  gateOrder := by
    show (0 : ℤ) ≤ 1200
    omega
  admittedBefore n hn := nomatch hn
  admittedAfter n hn := nomatch hn
  admitted h := nomatch h

theorem probe_alone_is_alone :
    validate (probeBeside [] 0).seen 3 = .ok .ranAlone ∧ (probeBeside [] 0).Alone := by
  have exact_reads : (probeBeside [] 0).Exact := exact_of_shows (fun r hr => nomatch hr)
    ⟨by decide +kernel, by decide +kernel, rfl, by decide +kernel, by decide +kernel,
      by decide +kernel⟩
    ⟨by decide +kernel, by decide +kernel, rfl, by decide +kernel, by decide +kernel,
      by decide +kernel⟩
  have valid : validate (probeBeside [] 0).seen 3 = .ok .ranAlone := by decide +kernel
  refine ⟨valid, (ran_alone_iff exact_reads).mpr ?_ valid⟩
  rintro ⟨_, _, _, l₁, r, l₂, others, _⟩
  have nonempty : l₁ ++ r :: l₂ ≠ [] := by simp
  exact nonempty others.symm

/-- A stranger that runs on when the probe has been counted is taken for it. -/
theorem stranger_ran_alone :
    (probeBeside [stranger] 1).Exact ∧
      validate (probeBeside [stranger] 1).seen 3 = .ok .ranAlone ∧
      ¬(probeBeside [stranger] 1).Alone := by
  refine ⟨exact_of_shows ?_ ?_ ?_, by decide +kernel, ?_⟩
  · intro r hr
    rw [List.mem_singleton.mp hr]
    exact ⟨fun a ha => (nomatch ha), by decide, by decide⟩
  · exact ⟨by decide +kernel, by decide +kernel, rfl, by decide +kernel, by decide +kernel,
      by decide +kernel⟩
  · exact ⟨by decide +kernel, by decide +kernel, rfl, by decide +kernel, by decide +kernel,
      by decide +kernel⟩
  · intro alone
    exact alone stranger List.mem_cons_self 500 (by decide) (by decide) (by decide)

end Lss.Analysis.ProbesAlone
