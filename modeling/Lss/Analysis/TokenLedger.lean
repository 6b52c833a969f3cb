import Mathlib.Algebra.Order.Ring.NNRat
import Mathlib.Data.List.Induction
import Mathlib.Tactic.Linarith
import Lss.Model.Tokens

/-!
# The token ledger and the tokens the engine counted

An engine works, restarts and is observed. What it really counted since the first observation
is compared with the totals of the ledger. The ledger learns of a restart from a counter that
went down or from a start time that changed; when the first readings of a run come without a
start time and a later one brings it, the ledger books the run a second time. A run is in time
when this cannot cost anything: before its start time is read, the counters either stayed
where the last run was read, or at zero. Over runs in time the ledger never counts too much,
and it counts exactly what the engine counted when every run is read at its end.
-/

set_option autoImplicit false

namespace Lss.Analysis.TokenLedger

open Lss.Model

/-- The counters of an engine at one moment. -/
abbrev Counters := TokenCounter → ℚ≥0

/-- What happens to an engine and its ledger. -/
inductive Event where
  /-- the counters grow -/
  | work (grown : Counters)
  /-- another run starts, with counters at zero -/
  | restart (startedAt : ℤ)
  /-- a poll reads the counters, and the start time when `known` -/
  | observe (known : Bool) (ts : ℤ) (day : String) (rest : ServeMetrics)

/-- The true history of an engine, as far as it has been told. -/
structure World where
  startedAt : ℤ
  counters : Counters := fun _ => 0
  /-- what was counted since the first observation -/
  counted : Counters := fun _ => 0
  observed : Bool := false
  /-- the last reading before the current run -/
  before : Option Counters := none
  /-- the readings of the current run, newest first -/
  here : List Counters := []
  /-- whether an earlier run was read with its start time -/
  knownBefore : Bool := false
  /-- whether the current run was read with its start time -/
  knownHere : Bool := false
  /-- whether the current run was so read since it last counted anything -/
  readAtEnd : Bool := false

/-- The last reading of all. -/
def World.lastReading (w : World) : Option Counters := w.here.head?.or w.before

def World.step (w : World) : Event → World
  | .work grown =>
    { w with
      counters := fun c => w.counters c + grown c
      counted := fun c => if w.observed then w.counted c + grown c else w.counted c
      readAtEnd := false }
  | .restart startedAt =>
    { w with
      startedAt := startedAt
      counters := fun _ => 0
      before := w.lastReading
      here := []
      knownBefore := w.knownBefore || w.knownHere
      knownHere := false
      readAtEnd := false }
  | .observe known _ _ _ =>
    { w with
      observed := true
      here := w.counters :: w.here
      knownHere := w.knownHere || known
      readAtEnd := w.readAtEnd || known }

/-- The metrics that a poll reads: the engine's counters, and the rest of the sample. -/
def World.metrics (w : World) (rest : ServeMetrics) : ServeMetrics :=
  { rest with
    generationTokensTotal := w.counters .generated
    promptTokensTotal := w.counters .prompt
    cachedTokensTotal := w.counters .cached
    requestsTotal := w.counters .requests }

theorem World.counter_metrics (w : World) (rest : ServeMetrics) (c : TokenCounter) :
    (w.metrics rest).counter c = w.counters c := by
  cases c <;> rfl

/-- The ledger sees the observations only. -/
def ledgerStep (w : World) (a : AllTime) : Event → AllTime
  | .observe known ts day rest =>
    a.observe ts day (if known then w.startedAt else 0) (w.metrics rest)
  | _ => a

/-- An engine's history and the ledger, event by event. -/
def step (s : World × AllTime) (e : Event) : World × AllTime := (s.1.step e, ledgerStep s.1 s.2 e)

/-- The history and the ledger after some events, the ledger empty before them. -/
def after (firstStart : ℤ) (events : List Event) : World × AllTime :=
  events.foldl step ({ startedAt := firstStart }, {})

theorem after_concat (firstStart : ℤ) (events : List Event) (e : Event) :
    after firstStart (events ++ [e]) = step (after firstStart events) e := by
  unfold after
  rw [List.foldl_append]
  rfl

/-! ## Histories -/

def Event.startedAt : Event → Option ℤ
  | .restart startedAt => some startedAt
  | _ => none

/-- The start times of the runs of a history. -/
def starts (firstStart : ℤ) (events : List Event) : List ℤ :=
  firstStart :: events.filterMap Event.startedAt

/-- Runs have start times that are distinct and not zero. -/
def DistinctStarts (firstStart : ℤ) (events : List Event) : Prop :=
  (starts firstStart events).Nodup ∧ ∀ s ∈ starts firstStart events, s ≠ 0

/-- Where the readings of the current run are no growth of a counter: they are all zero, or all
what was read last before the run. -/
def Still (w : World) (c : TokenCounter) : Prop :=
  (∀ r ∈ w.here, r c = 0) ∨ ∀ r ∈ w.here, w.before.map (fun b => b c) = some (r c)

/-- A poll is in time: when it is the first to bring the start time of a run, after the start
time of an earlier one, the readings of the run before it are no growth. -/
def InTime (w : World) : Event → Prop
  | .observe known _ _ _ =>
    known = true → w.knownBefore = true → w.knownHere = false → ∀ c, Still w c
  | _ => True

/-- Every poll of a history is in time. -/
def AllInTime (firstStart : ℤ) (events : List Event) : Prop :=
  ∀ pre e post, events = pre ++ e :: post → InTime (after firstStart pre).1 e

/-- Every run is read at its end with its start time. -/
def EveryEndRead (firstStart : ℤ) (events : List Event) : Prop :=
  (∀ pre startedAt post, events = pre ++ .restart startedAt :: post →
    (after firstStart pre).1.readAtEnd = true) ∧ (after firstStart events).1.readAtEnd = true

/-! ## The ledger follows the readings -/

/-- Whether the ledger still has the start time of an earlier run. -/
def Behind (w : World) : Prop := w.knownBefore = true ∧ w.knownHere = false

/-- What the ledger remembers of a history: the last reading, and the start time that was read
last. -/
structure Follows (w : World) (a : AllTime) (past : List ℤ) : Prop where
  last : ∀ c, (a.counter c).last = w.lastReading.map fun r => (r c : ℚ)
  fresh : w.observed = false → w.lastReading = none ∧ w.knownBefore = false ∧
    w.knownHere = false ∧ ∀ c, (a.counter c).total = 0 ∧ w.counted c = 0
  watched : w.observed = true → w.lastReading.isSome = true
  grows : ∀ r ∈ w.here, ∀ c, r c ≤ w.counters c
  current : w.knownHere = true → a.epoch = w.startedAt
  behind : Behind w → a.epoch ≠ 0 ∧ a.epoch ≠ w.startedAt
  blind : w.knownBefore = false → w.knownHere = false → a.epoch = 0
  started : w.startedAt ∈ past
  epoch : a.epoch = 0 ∨ a.epoch ∈ past
  ended : w.readAtEnd = true → w.knownHere = true ∧ w.here.head? = some w.counters

/-- An observation resets the counters when it brings a start time and the ledger has that of
an earlier run. -/
theorem Follows.reset {w : World} {a : AllTime} {past : List ℤ} (h : Follows w a past)
    (nonzero : ∀ s ∈ past, s ≠ 0) (known : Bool) :
    a.reset (if known then w.startedAt else 0) = true ↔ known = true ∧ Behind w := by
  have hstart := nonzero _ h.started
  unfold AllTime.reset
  rw [decide_eq_true_iff]
  cases known with
  | false => simp
  | true =>
      simp only [if_true, true_and]
      constructor
      · rintro ⟨-, hepoch, hne⟩
        have hhere : w.knownHere = false := by
          by_contra hk
          exact hne (h.current (by simpa using hk)).symm
        refine ⟨?_, hhere⟩
        by_contra hk
        exact hepoch (h.blind (by simpa using hk) hhere)
      · intro hb
        obtain ⟨hepoch, hne⟩ := h.behind hb
        exact ⟨hstart, hepoch, hne.symm⟩

/-- What a poll adds to a total. -/
theorem Follows.counter_ledgerStep {w : World} {a : AllTime} {past : List ℤ}
    (_h : Follows w a past) (known : Bool) (ts : ℤ) (day : String) (rest : ServeMetrics)
    (c : TokenCounter) :
    (ledgerStep w a (.observe known ts day rest)).counter c =
      ⟨(a.counter c).total + (a.counter c).added (w.counters c)
        (a.reset (if known then w.startedAt else 0)), some (w.counters c : ℚ)⟩ := by
  have hnonneg : ¬ ((w.counters c : ℚ) < 0) := not_lt.2 (w.counters c).2
  unfold ledgerStep
  dsimp only
  rw [AllTime.counter_observe, World.counter_metrics]
  unfold CounterTotal.observe
  rw [if_neg hnonneg]

theorem Follows.step {w : World} {a : AllTime} {past : List ℤ} (h : Follows w a past)
    (nonzero : ∀ s ∈ past, s ≠ 0) (e : Event)
    (distinct : ∀ s, e.startedAt = some s → s ∉ past) :
    Follows (w.step e) (ledgerStep w a e) (past ++ e.startedAt.toList) := by
  cases e with
  | work grown =>
      constructor
      · exact h.last
      · intro ho
        obtain ⟨h1, h2, h3, h4⟩ := h.fresh ho
        refine ⟨h1, h2, h3, fun c => ⟨(h4 c).1, ?_⟩⟩
        have ho' : w.observed = false := ho
        simp only [World.step, ho']
        exact (h4 c).2
      · exact h.watched
      · intro r hr c
        exact (h.grows r hr c).trans (le_add_of_nonneg_right zero_le)
      · exact h.current
      · exact h.behind
      · exact h.blind
      · exact List.mem_append_left _ h.started
      · exact h.epoch.imp_right (List.mem_append_left _)
      · intro hend
        exact absurd hend Bool.false_ne_true
  | restart startedAt =>
      have hnew := distinct startedAt rfl
      constructor
      · exact h.last
      · intro ho
        obtain ⟨h1, h2, h3, h4⟩ := h.fresh ho
        exact ⟨h1, by simp [World.step, h2, h3], rfl, h4⟩
      · exact h.watched
      · intro r hr
        exact absurd hr (by simp [World.step])
      · intro hk
        exact absurd hk Bool.false_ne_true
      · rintro ⟨hk, -⟩
        have hepoch : a.epoch ≠ 0 := by
          rcases Bool.or_eq_true_iff.1 hk with hb | hc
          · cases hcur : w.knownHere with
            | true => rw [h.current hcur]; exact nonzero _ h.started
            | false => exact (h.behind ⟨hb, hcur⟩).1
          · rw [h.current hc]
            exact nonzero _ h.started
        refine ⟨hepoch, ?_⟩
        intro heq
        have hmem := h.epoch.resolve_left hepoch
        have heq' : a.epoch = startedAt := heq
        rw [heq'] at hmem
        exact hnew hmem
      · intro hb _
        have hb' : (w.knownBefore || w.knownHere) = false := hb
        rw [Bool.or_eq_false_iff] at hb'
        exact h.blind hb'.1 hb'.2
      · simp [World.step, Event.startedAt]
      · rcases h.epoch with h0 | hm
        · exact Or.inl h0
        · exact Or.inr (List.mem_append_left _ hm)
      · intro hend
        exact absurd hend Bool.false_ne_true
  | observe known ts day rest =>
      have hepoch : (ledgerStep w a (.observe known ts day rest)).epoch =
          if known then w.startedAt else a.epoch := by
        unfold ledgerStep
        dsimp only
        rw [AllTime.epoch_observe]
        cases known with
        | true => exact if_pos (nonzero _ h.started)
        | false => rfl
      constructor
      · intro c
        rw [h.counter_ledgerStep]
        rfl
      · intro ho
        exact absurd ho (by simp [World.step])
      · intro _
        rfl
      · intro r hr c
        rcases List.mem_cons.1 hr with rfl | hr
        · exact le_refl _
        · exact h.grows r hr c
      · intro hk
        rw [hepoch]
        cases known with
        | true => rfl
        | false => exact h.current (by simpa [World.step] using hk)
      · rintro ⟨hb, hk⟩
        have hk' : (w.knownHere || known) = false := hk
        rw [Bool.or_eq_false_iff] at hk'
        rw [hepoch, hk'.2]
        exact h.behind ⟨hb, hk'.1⟩
      · intro hb hk
        have hk' : (w.knownHere || known) = false := hk
        rw [Bool.or_eq_false_iff] at hk'
        rw [hepoch, hk'.2]
        exact h.blind hb hk'.1
      · simpa [World.step, Event.startedAt] using h.started
      · rw [hepoch]
        cases known with
        | true => exact Or.inr (by simpa [Event.startedAt] using h.started)
        | false => simpa [Event.startedAt] using h.epoch
      · intro hend
        refine ⟨?_, rfl⟩
        have hend' : (w.readAtEnd || known) = true := hend
        rcases Bool.or_eq_true_iff.1 hend' with hr | hk
        · simp [World.step, (h.ended hr).1]
        · simp [World.step, hk]

/-! ## What a poll adds -/

section Added

variable {t : CounterTotal} {l v : ℚ}

theorem added_of_none (h : t.last = none) (reset : Bool) : t.added v reset = 0 := by
  unfold CounterTotal.added
  rw [h]

theorem added_of_reset (h : t.last = some l) : t.added v true = v := by
  unfold CounterTotal.added
  rw [h]
  exact if_pos (Or.inl rfl)

theorem added_of_lt (h : t.last = some l) (hlt : v < l) (reset : Bool) : t.added v reset = v := by
  unfold CounterTotal.added
  rw [h]
  exact if_pos (Or.inr hlt)

theorem added_of_le (h : t.last = some l) (hle : l ≤ v) : t.added v false = v - l := by
  unfold CounterTotal.added
  rw [h]
  apply if_neg
  rintro (hr | hlt)
  · exact absurd hr Bool.false_ne_true
  · exact absurd hlt (not_lt.2 hle)

/-- Whatever the engine did, no more is added than the counter shows. -/
theorem added_le (h : t.last = some l) (hl : 0 ≤ l) (reset : Bool) : t.added v reset ≤ v := by
  unfold CounterTotal.added
  rw [h]
  dsimp only
  split
  · exact le_refl v
  · linarith

/-- A reading that stays, or is zero, adds nothing. -/
theorem added_eq_zero (h : t.last = some l) (hl : 0 ≤ l) (hv : v = 0 ∨ v = l) :
    t.added v false = 0 := by
  rcases hv with hv | hv
  · rcases hl.lt_or_eq with hlt | heq
    · rw [added_of_lt h (by rw [hv]; exact hlt), hv]
    · rw [added_of_le h (by rw [hv, heq]), hv, ← heq, sub_zero]
  · rw [added_of_le h (by rw [hv]), hv, sub_self]

end Added

/-! ## The ledger never counts too much -/

/-- Where the total of a counter stands to what was counted, when the ledger may still book the
whole of the counter: `total + counter` is no more than what was counted. Once the current run
was read, only its growth since the last reading is left to book. -/
structure NeverOver (w : World) (a : AllTime) (c : TokenCounter) : Prop where
  unread : w.observed = true → (w.here = [] ∨ (Behind w ∧ Still w c)) →
    (a.counter c).total + w.counters c ≤ w.counted c
  read : ∀ r ∈ w.here.head?, (a.counter c).total + (w.counters c - r c) ≤ w.counted c

/-- The last reading of a history that was observed. -/
theorem Follows.exists_last {w : World} {a : AllTime} {past : List ℤ} (h : Follows w a past)
    (hobserved : w.observed = true) (c : TokenCounter) :
    ∃ r, w.lastReading = some r ∧ (a.counter c).last = some (r c : ℚ) := by
  obtain ⟨r, hr⟩ := Option.isSome_iff_exists.1 (h.watched hobserved)
  refine ⟨r, hr, ?_⟩
  rw [h.last, hr]
  rfl

theorem lastReading_of_here {w : World} {r : Counters} (h : r ∈ w.here.head?) :
    w.lastReading = some r := by
  unfold World.lastReading
  rw [Option.mem_def.1 h]
  rfl

theorem Follows.observed_of_read {w : World} {a : AllTime} {past : List ℤ} (h : Follows w a past)
    {r : Counters} (hr : r ∈ w.here.head?) : w.observed = true := by
  by_contra ho
  have hnone := (h.fresh (by simpa using ho)).1
  rw [lastReading_of_here hr] at hnone
  exact Option.some_ne_none _ hnone

/-- Where a run's readings, with one more, are still no growth, this one stays or is zero. -/
theorem Still.last_or_zero {w : World} {c : TokenCounter} {r : Counters}
    (h : Still { w with here := w.counters :: w.here } c) (hlast : w.lastReading = some r) :
    w.counters c = 0 ∨ w.counters c = r c := by
  rcases h with hzero | hsame
  · exact Or.inl (hzero w.counters (by simp))
  · have hnow := hsame w.counters (by simp)
    right
    cases hhere : w.here with
    | nil =>
        have hbefore : w.before = some r := by
          unfold World.lastReading at hlast
          rw [hhere] at hlast
          exact hlast
        rw [hbefore] at hnow
        exact (Option.some.inj hnow).symm
    | cons x rest =>
        have hx : x = r := by
          unfold World.lastReading at hlast
          rw [hhere] at hlast
          exact Option.some.inj hlast
        have hmem : x ∈ w.counters :: w.here := by rw [hhere]; simp
        rw [hsame x hmem] at hnow
        rw [← hx]
        exact (Option.some.inj hnow).symm

theorem Still.of_cons {w : World} {c : TokenCounter} {r : Counters}
    (h : Still { w with here := r :: w.here } c) : Still w c :=
  h.imp (fun hz x hx => hz x (List.mem_cons_of_mem _ hx))
    fun hs x hx => hs x (List.mem_cons_of_mem _ hx)

section Observe

variable {w : World} {a : AllTime} {past : List ℤ} (h : Follows w a past)
  (nonzero : ∀ s ∈ past, s ≠ 0) {known : Bool} {ts : ℤ} {day : String} {rest : ServeMetrics}
  {c : TokenCounter}
include h

include nonzero in
/-- A poll without a start time that leaves the readings of a run without growth. -/
theorem counter_of_still (hobserved : w.observed = true)
    (hbehind : Behind (w.step (.observe known ts day rest)))
    (hstill : Still (w.step (.observe known ts day rest)) c) :
    ((ledgerStep w a (.observe known ts day rest)).counter c).total = (a.counter c).total ∧
      Behind w ∧ Still w c := by
  have hknown : (w.knownHere || known) = false := hbehind.2
  rw [Bool.or_eq_false_iff] at hknown
  obtain ⟨r, hr, hlast⟩ := h.exists_last hobserved c
  have hreset : a.reset (if known then w.startedAt else 0) = false := by
    rw [Bool.eq_false_iff]
    intro hreset
    have hk := ((h.reset nonzero known).1 hreset).1
    rw [hknown.2] at hk
    exact Bool.false_ne_true hk
  have hvalue : (w.counters c : ℚ) = 0 ∨ (w.counters c : ℚ) = r c := by
    rcases Still.last_or_zero hstill hr with hz | hs
    · exact Or.inl (by rw [hz]; rfl)
    · exact Or.inr (by rw [hs])
  refine ⟨?_, ⟨hbehind.1, hknown.1⟩, Still.of_cons hstill⟩
  rw [h.counter_ledgerStep, hreset]
  dsimp only
  rw [added_eq_zero hlast (r c).2 hvalue, add_zero]

/-- A poll that reads a run again books the growth since its last reading. -/
theorem total_of_read {r : Counters} (hr : r ∈ w.here.head?)
    (hreset : a.reset (if known then w.startedAt else 0) = false) :
    ((ledgerStep w a (.observe known ts day rest)).counter c).total =
      (a.counter c).total + (w.counters c - r c) := by
  have hlast : (a.counter c).last = some (r c : ℚ) := by
    rw [h.last, lastReading_of_here hr]
    rfl
  have hle : (r c : ℚ) ≤ w.counters c := h.grows r (List.mem_of_mem_head? hr) c
  rw [h.counter_ledgerStep, hreset]
  dsimp only
  rw [added_of_le hlast hle]

/-- A poll that resets the counters books the whole of each. -/
theorem total_of_reset (hobserved : w.observed = true)
    (hreset : a.reset (if known then w.startedAt else 0) = true) :
    ((ledgerStep w a (.observe known ts day rest)).counter c).total =
      (a.counter c).total + w.counters c := by
  obtain ⟨r, -, hlast⟩ := h.exists_last hobserved c
  rw [h.counter_ledgerStep, hreset]
  dsimp only
  rw [added_of_reset hlast]

/-- The first poll of all books nothing. -/
theorem total_of_first (hobserved : w.observed = false) :
    ((ledgerStep w a (.observe known ts day rest)).counter c).total = 0 ∧
      ¬ Behind (w.step (.observe known ts day rest)) ∧ w.counted c = 0 := by
  obtain ⟨hlast, hbefore, -, hzero⟩ := h.fresh hobserved
  have hnone : (a.counter c).last = none := by
    rw [h.last, hlast]
    rfl
  refine ⟨?_, ?_, (hzero c).2⟩
  · rw [h.counter_ledgerStep]
    dsimp only
    rw [added_of_none hnone, (hzero c).1, add_zero]
  · rintro ⟨hb, -⟩
    have hb' : w.knownBefore = true := hb
    rw [hbefore] at hb'
    exact Bool.false_ne_true hb'

include nonzero in
/-- What a poll in time leaves: the total is no more than what was counted, also with the
whole of the counter where the readings are still no growth. -/
theorem NeverOver.observe (hinv : NeverOver w a c)
    (intime : InTime w (.observe known ts day rest)) :
    NeverOver (w.step (.observe known ts day rest)) (ledgerStep w a (.observe known ts day rest))
      c := by
  cases hobserved : w.observed with
  | false =>
      have hfirst : ((ledgerStep w a (.observe known ts day rest)).counter c).total = 0 ∧
          ¬ Behind (w.step (.observe known ts day rest)) ∧ w.counted c = 0 :=
        total_of_first h hobserved
      obtain ⟨htotal, hbehind, hcounted⟩ := hfirst
      constructor
      · rintro - (hnil | ⟨hb, -⟩)
        · exact absurd hnil (by simp [World.step])
        · exact absurd hb hbehind
      · intro r hr
        have hr' : r = w.counters := (Option.some.inj hr).symm
        rw [htotal, hr']
        show (0 : ℚ) + (w.counters c - w.counters c) ≤ w.counted c
        rw [hcounted, sub_self, add_zero]
        exact le_refl _
  | true =>
      constructor
      · rintro - (hnil | ⟨hb, hstill⟩)
        · exact absurd hnil (by simp [World.step])
        · obtain ⟨htotal, hb', hstill'⟩ := counter_of_still h nonzero hobserved hb hstill
          rw [htotal]
          exact hinv.unread hobserved (Or.inr ⟨hb', hstill'⟩)
      · intro r hr
        have hr' : r = w.counters := (Option.some.inj hr).symm
        rw [hr']
        show ((ledgerStep w a (.observe known ts day rest)).counter c).total +
          (w.counters c - w.counters c) ≤ w.counted c
        rw [sub_self, add_zero]
        cases hreset : a.reset (if known then w.startedAt else 0) with
        | true =>
            obtain ⟨hk, hb⟩ := (h.reset nonzero known).1 hreset
            rw [total_of_reset h hobserved hreset]
            exact hinv.unread hobserved (Or.inr ⟨hb, intime hk hb.1 hb.2 c⟩)
        | false =>
            cases hhere : w.here with
            | nil =>
                obtain ⟨r₀, -, hlast⟩ := h.exists_last hobserved c
                have hle := hinv.unread hobserved (Or.inl hhere)
                rw [h.counter_ledgerStep, hreset]
                have hadded := added_le (v := w.counters c) hlast (r₀ c).2 false
                dsimp only
                linarith
            | cons r₀ rest₀ =>
                have hr₀ : r₀ ∈ w.here.head? := by rw [hhere]; rfl
                rw [total_of_read h hr₀ hreset]
                exact hinv.read r₀ hr₀

end Observe

theorem NeverOver.work {w : World} {a : AllTime} {c : TokenCounter} (hinv : NeverOver w a c)
    {past : List ℤ} (h : Follows w a past) (grown : Counters) :
    NeverOver (w.step (.work grown)) (ledgerStep w a (.work grown)) c := by
  constructor
  · intro hobserved hopen
    have ho : w.observed = true := hobserved
    have hle := hinv.unread ho hopen
    simp only [World.step, ledgerStep, ho, if_true]
    push_cast
    linarith
  · intro r hr
    have ho : w.observed = true := h.observed_of_read hr
    have hle := hinv.read r hr
    simp only [World.step, ledgerStep, ho, if_true]
    push_cast
    linarith

theorem NeverOver.total_le {w : World} {a : AllTime} {c : TokenCounter} (hinv : NeverOver w a c)
    {past : List ℤ} (h : Follows w a past) : (a.counter c).total ≤ w.counted c := by
  cases hobserved : w.observed with
  | false =>
      obtain ⟨htotal, hcounted⟩ := (h.fresh hobserved).2.2.2 c
      rw [htotal, hcounted]
      exact le_refl _
  | true =>
      cases hhere : w.here with
      | nil =>
          have hle := hinv.unread hobserved (Or.inl hhere)
          have hnonneg : (0 : ℚ) ≤ w.counters c := (w.counters c).2
          linarith
      | cons r rest =>
          have hle := hinv.read r (by rw [hhere]; rfl)
          have hgrows : (r c : ℚ) ≤ w.counters c := h.grows r (by rw [hhere]; simp) c
          linarith

theorem NeverOver.restart {w : World} {a : AllTime} {c : TokenCounter} (hinv : NeverOver w a c)
    {past : List ℤ} (h : Follows w a past) (startedAt : ℤ) :
    NeverOver (w.step (.restart startedAt)) (ledgerStep w a (.restart startedAt)) c := by
  constructor
  · intro _ _
    have hle := hinv.total_le h
    show (a.counter c).total + ((0 : ℚ≥0) : ℚ) ≤ w.counted c
    rw [NNRat.coe_zero, add_zero]
    exact hle
  · intro r hr
    exact absurd hr (by simp [World.step])

/-! ## Where every run is read at its end, the ledger counts all of it -/

/-- The total of a counter with what is left to book is what was counted. -/
structure Exact (w : World) (a : AllTime) (c : TokenCounter) : Prop where
  unread : w.observed = true → (w.here = [] ∨ (Behind w ∧ Still w c)) →
    (a.counter c).total + w.counters c = w.counted c
  read : ¬ Behind w → ∀ r ∈ w.here.head?,
    (a.counter c).total + (w.counters c - r c) = w.counted c
  known : w.observed = true → w.here = [] → Behind w

theorem Exact.observe {w : World} {a : AllTime} {past : List ℤ} (h : Follows w a past)
    (nonzero : ∀ s ∈ past, s ≠ 0) {known : Bool} {ts : ℤ} {day : String} {rest : ServeMetrics}
    {c : TokenCounter} (hinv : Exact w a c) (intime : InTime w (.observe known ts day rest)) :
    Exact (w.step (.observe known ts day rest)) (ledgerStep w a (.observe known ts day rest))
      c := by
  cases hobserved : w.observed with
  | false =>
      have hfirst : ((ledgerStep w a (.observe known ts day rest)).counter c).total = 0 ∧
          ¬ Behind (w.step (.observe known ts day rest)) ∧ w.counted c = 0 :=
        total_of_first h hobserved
      obtain ⟨htotal, hbehind, hcounted⟩ := hfirst
      constructor
      · rintro - (hnil | ⟨hb, -⟩)
        · exact absurd hnil (by simp [World.step])
        · exact absurd hb hbehind
      · intro _ r hr
        have hr' : r = w.counters := (Option.some.inj hr).symm
        rw [htotal, hr']
        show (0 : ℚ) + (w.counters c - w.counters c) = w.counted c
        rw [hcounted, sub_self, add_zero]
        rfl
      · intro _ hnil
        exact absurd hnil (by simp [World.step])
  | true =>
      constructor
      · rintro - (hnil | ⟨hb, hstill⟩)
        · exact absurd hnil (by simp [World.step])
        · obtain ⟨htotal, hb', hstill'⟩ := counter_of_still h nonzero hobserved hb hstill
          rw [htotal]
          exact hinv.unread hobserved (Or.inr ⟨hb', hstill'⟩)
      · intro hbehind r hr
        have hr' : r = w.counters := (Option.some.inj hr).symm
        rw [hr']
        show ((ledgerStep w a (.observe known ts day rest)).counter c).total +
          (w.counters c - w.counters c) = w.counted c
        rw [sub_self, add_zero]
        by_cases hb : Behind w
        · -- the ledger was behind and is not any more: this poll brought the start time
          have hknown : known = true := by
            by_contra hk
            apply hbehind
            refine ⟨hb.1, ?_⟩
            show (w.knownHere || known) = false
            rw [hb.2, Bool.eq_false_iff.2 hk]
            rfl
          have hreset := (h.reset nonzero known).2 ⟨hknown, hb⟩
          rw [total_of_reset h hobserved hreset]
          exact hinv.unread hobserved (Or.inr ⟨hb, intime hknown hb.1 hb.2 c⟩)
        · have hreset : a.reset (if known then w.startedAt else 0) = false := by
            rw [Bool.eq_false_iff]
            intro hreset
            exact hb ((h.reset nonzero known).1 hreset).2
          cases hhere : w.here with
          | nil => exact absurd (hinv.known hobserved hhere) hb
          | cons r₀ rest₀ =>
              have hr₀ : r₀ ∈ w.here.head? := by rw [hhere]; rfl
              rw [total_of_read h hr₀ hreset]
              exact hinv.read hb r₀ hr₀
      · intro _ hnil
        exact absurd hnil (by simp [World.step])

theorem Exact.work {w : World} {a : AllTime} {c : TokenCounter} (hinv : Exact w a c)
    {past : List ℤ} (h : Follows w a past) (grown : Counters) :
    Exact (w.step (.work grown)) (ledgerStep w a (.work grown)) c := by
  constructor
  · intro hobserved hopen
    have ho : w.observed = true := hobserved
    have heq := hinv.unread ho hopen
    simp only [World.step, ledgerStep, ho, if_true]
    push_cast
    linarith
  · intro hb r hr
    have ho : w.observed = true := h.observed_of_read hr
    have heq := hinv.read hb r hr
    simp only [World.step, ledgerStep, ho, if_true]
    push_cast
    linarith
  · exact hinv.known

theorem Exact.total_eq {w : World} {a : AllTime} {c : TokenCounter} (hinv : Exact w a c)
    {past : List ℤ} (h : Follows w a past) (hend : w.readAtEnd = true) :
    (a.counter c).total = w.counted c := by
  obtain ⟨hknown, hhead⟩ := h.ended hend
  have hbehind : ¬ Behind w := by
    rintro ⟨-, hk⟩
    rw [hknown] at hk
    exact Bool.noConfusion hk
  have heq := hinv.read hbehind w.counters hhead
  rwa [sub_self, add_zero] at heq

theorem Exact.restart {w : World} {a : AllTime} {c : TokenCounter} (hinv : Exact w a c)
    {past : List ℤ} (h : Follows w a past) (hend : w.readAtEnd = true) (startedAt : ℤ) :
    Exact (w.step (.restart startedAt)) (ledgerStep w a (.restart startedAt)) c := by
  constructor
  · intro _ _
    have heq := hinv.total_eq h hend
    show (a.counter c).total + ((0 : ℚ≥0) : ℚ) = w.counted c
    rw [NNRat.coe_zero, add_zero]
    exact heq
  · intro _ r hr
    exact absurd hr (by simp [World.step])
  · intro _ _
    refine ⟨?_, rfl⟩
    show (w.knownBefore || w.knownHere) = true
    rw [(h.ended hend).1, Bool.or_true]

/-! ## Runs -/

theorem follows_init (firstStart : ℤ) : Follows { startedAt := firstStart } {} [firstStart] := by
  constructor
  · intro c
    cases c <;> rfl
  · intro _
    exact ⟨rfl, rfl, rfl, fun c => ⟨by cases c <;> rfl, rfl⟩⟩
  · intro ho
    exact absurd ho Bool.false_ne_true
  · intro r hr
    exact absurd hr (by simp)
  · intro hk
    exact absurd hk Bool.false_ne_true
  · rintro ⟨hk, -⟩
    exact absurd hk Bool.false_ne_true
  · intro _ _
    rfl
  · simp
  · exact Or.inl rfl
  · intro hend
    exact absurd hend Bool.false_ne_true

theorem starts_concat (firstStart : ℤ) (events : List Event) (e : Event) :
    starts firstStart (events ++ [e]) = starts firstStart events ++ e.startedAt.toList := by
  unfold starts
  rw [List.filterMap_append, List.cons_append]
  cases h : e.startedAt with
  | none => simp [h]
  | some s => simp [h]

theorem DistinctStarts.of_concat {firstStart : ℤ} {events : List Event} {e : Event}
    (h : DistinctStarts firstStart (events ++ [e])) :
    DistinctStarts firstStart events ∧
      ∀ s, e.startedAt = some s → s ∉ starts firstStart events := by
  obtain ⟨hnodup, hzero⟩ := h
  rw [starts_concat] at hnodup hzero
  refine ⟨⟨(List.nodup_append.1 hnodup).1, fun s hs => hzero s (List.mem_append_left _ hs)⟩, ?_⟩
  intro s hs hmem
  exact (List.nodup_append.1 hnodup).2.2 s hmem s (by rw [hs]; simp) rfl

theorem AllInTime.of_concat {firstStart : ℤ} {events : List Event} {e : Event}
    (h : AllInTime firstStart (events ++ [e])) :
    AllInTime firstStart events ∧ InTime (after firstStart events).1 e := by
  refine ⟨?_, h events e [] rfl⟩
  intro pre x post hsplit
  exact h pre x (post ++ [e]) (by rw [hsplit]; simp)

/-- Every history is followed. -/
theorem follows_after (firstStart : ℤ) (events : List Event)
    (distinct : DistinctStarts firstStart events) :
    Follows (after firstStart events).1 (after firstStart events).2
      (starts firstStart events) := by
  induction events using List.reverseRecOn with
  | nil => exact follows_init firstStart
  | append_singleton events e ih =>
      obtain ⟨hdistinct, hnew⟩ := distinct.of_concat
      rw [after_concat, starts_concat]
      exact (ih hdistinct).step hdistinct.2 e hnew

theorem neverOver_after (firstStart : ℤ) (events : List Event)
    (distinct : DistinctStarts firstStart events) (intime : AllInTime firstStart events)
    (c : TokenCounter) :
    NeverOver (after firstStart events).1 (after firstStart events).2 c := by
  induction events using List.reverseRecOn with
  | nil =>
      constructor
      · intro ho
        exact absurd ho Bool.false_ne_true
      · intro r hr
        exact absurd hr (by simp [after])
  | append_singleton events e ih =>
      obtain ⟨hdistinct, -⟩ := distinct.of_concat
      obtain ⟨hbefore, hnow⟩ := intime.of_concat
      have hinv := ih hdistinct hbefore
      have hfollows := follows_after firstStart events hdistinct
      rw [after_concat]
      cases e with
      | work grown => exact hinv.work hfollows grown
      | restart startedAt => exact hinv.restart hfollows startedAt
      | observe known ts day rest => exact hinv.observe hfollows hdistinct.2 hnow

theorem exact_after (firstStart : ℤ) (events : List Event)
    (distinct : DistinctStarts firstStart events) (intime : AllInTime firstStart events)
    (ends : ∀ pre startedAt post, events = pre ++ .restart startedAt :: post →
      (after firstStart pre).1.readAtEnd = true) (c : TokenCounter) :
    Exact (after firstStart events).1 (after firstStart events).2 c := by
  induction events using List.reverseRecOn with
  | nil =>
      constructor
      · intro ho
        exact absurd ho Bool.false_ne_true
      · intro _ r hr
        exact absurd hr (by simp [after])
      · intro ho
        exact absurd ho Bool.false_ne_true
  | append_singleton events e ih =>
      obtain ⟨hdistinct, -⟩ := distinct.of_concat
      obtain ⟨hbefore, hnow⟩ := intime.of_concat
      have hinv := ih hdistinct hbefore fun pre s post hsplit =>
        ends pre s (post ++ [e]) (by rw [hsplit]; simp)
      have hfollows := follows_after firstStart events hdistinct
      rw [after_concat]
      cases e with
      | work grown => exact hinv.work hfollows grown
      | restart startedAt => exact hinv.restart hfollows (ends events startedAt [] rfl) startedAt
      | observe known ts day rest => exact hinv.observe hfollows hdistinct.2 hnow

/-- In every history whose polls are in time no total of the ledger is more than what the
engine counted since the first observation, and every total is that number when every run was
read at its end with its start time. -/
theorem ledger_never_overcounts (firstStart : ℤ) (events : List Event)
    (distinct : DistinctStarts firstStart events) (intime : AllInTime firstStart events) :
    ∀ c, ((after firstStart events).2.counter c).total ≤ (after firstStart events).1.counted c ∧
      (EveryEndRead firstStart events →
        ((after firstStart events).2.counter c).total = (after firstStart events).1.counted c) := by
  intro c
  have hfollows := follows_after firstStart events distinct
  refine ⟨(neverOver_after firstStart events distinct intime c).total_le hfollows, ?_⟩
  intro hends
  exact (exact_after firstStart events distinct intime hends.1 c).total_eq hfollows hends.2

/-! ## A restart that is booked twice -/

/-- Some tokens of every kind. -/
def tokens (n : ℚ≥0) : Counters := fun _ => n

/-- A restart whose start time is read at once. -/
def restartRead : List Event :=
  [.work (tokens 5), .observe true 1000 "" {}, .restart 2000, .work (tokens 3),
    .observe true 2005 "" {}]

theorem AllInTime.concat {firstStart : ℤ} {events : List Event} {e : Event}
    (h : AllInTime firstStart events) (now : InTime (after firstStart events).1 e) :
    AllInTime firstStart (events ++ [e]) := by
  intro pre x post hsplit
  rcases List.eq_nil_or_concat post with rfl | ⟨post', y, rfl⟩
  · obtain ⟨hpre, hx⟩ := List.append_inj' hsplit rfl
    rw [← hpre, ← (List.cons.inj hx).1]
    exact now
  · have hsplit' : events ++ [e] = (pre ++ x :: post') ++ [y] := by
      rw [hsplit]
      simp
    exact h pre x post' (List.append_inj' hsplit' rfl).1

theorem restartRead_inTime : AllInTime 900 restartRead := by
  have hnil : AllInTime 900 [] := fun pre e post hsplit => absurd hsplit (by simp)
  have hwork : AllInTime 900 (restartRead.take 1) := hnil.concat trivial
  have hread : AllInTime 900 (restartRead.take 2) := by
    apply hwork.concat
    intro _ hbefore
    exact absurd hbefore Bool.false_ne_true
  have hrestart : AllInTime 900 (restartRead.take 3) := hread.concat trivial
  have hagain : AllInTime 900 (restartRead.take 4) := hrestart.concat trivial
  apply hagain.concat
  intro _ _ _ c
  exact Or.inl fun r hr => absurd hr (by simp [after, step, World.step, restartRead])

theorem restart_counted_once :
    ((after 900 restartRead).2.counter .generated).total ≤
      (after 900 restartRead).1.counted .generated :=
  (ledger_never_overcounts 900 restartRead (by unfold DistinctStarts; decide) restartRead_inTime
    .generated).1

/-- A restart whose first reading comes without a start time. -/
def restartUnknown : List Event :=
  [.work (tokens 5), .observe true 1000 "" {}, .restart 2000, .work (tokens 3),
    .observe false 2005 "" {}, .work (tokens 1), .observe true 2010 "" {}]

/-- The run is booked when its counters are lower than before, and again when its start time
is read: seven tokens for the four that were counted. -/
theorem restart_counted_twice :
    DistinctStarts 900 restartUnknown ∧
      (after 900 restartUnknown).1.counted .generated = 4 ∧
      ((after 900 restartUnknown).2.counter .generated).total = 7 := by
  refine ⟨by unfold DistinctStarts; decide, by decide +kernel, by decide +kernel⟩

end Lss.Analysis.TokenLedger
