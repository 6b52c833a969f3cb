import Mathlib.Order.Monotone.Basic
import Mathlib.Data.Nat.Find
import Lss.Model.Incidents
import Mathlib.Data.Int.ConditionallyCompleteOrder
import Mathlib.Order.Lattice.Nat

/-!
# Restarts of a container and the events about them

A container has one run after the other. Two facts of an inspect tell the runs apart, the
restart count and the time of the start, and a reading may show them for different runs, or
miss the second one. A restart is visible in the first reading that shows a run newer than
every run shown before. The tracker writes an event for every reading in which one of the two
facts differs from the reading before it, so it writes one for every visible restart, and it
writes no others exactly when no reading changes a fact without showing a newer run.
-/

set_option autoImplicit false

namespace Lss.Analysis.ContainerRestarts

open Lss.Library Lss.Model

/-! ## The true history and what a reading shows of it -/

/-- The runs of a container, with the two facts an inspect has of them. -/
structure ContainerRuns where
  restartCount : ℕ → ℕ
  startedAt : ℕ → ℤ
  count_mono : Monotone restartCount
  start_mono : Monotone startedAt
  start_pos : 0 < startedAt 0

theorem ContainerRuns.startedAt_ne_zero (H : ContainerRuns) (j : ℕ) : H.startedAt j ≠ 0 := by
  have hle := H.start_mono (Nat.zero_le j)
  have hpos := H.start_pos
  omega

/-- The runs that the two facts of a reading belong to; the time of the start may read 0. -/
structure Reading where
  count : ℕ
  start : Option ℕ

/-- The first run that has the same fact as a given one. -/
def firstWith {α : Type} [DecidableEq α] (fact : ℕ → α) (i : ℕ) : ℕ :=
  Nat.find (p := fun r => fact r = fact i) ⟨i, rfl⟩

theorem firstWith_congr {α : Type} [DecidableEq α] {fact : ℕ → α} {i j : ℕ}
    (h : fact i = fact j) : firstWith fact i = firstWith fact j := by
  unfold firstWith
  simp only [h]

theorem firstWith_of_injective {α : Type} [DecidableEq α] {fact : ℕ → α}
    (h : Function.Injective fact) (i : ℕ) : firstWith fact i = i := by
  unfold firstWith
  rw [Nat.find_eq_iff]
  refine ⟨rfl, ?_⟩
  intro n hn heq
  exact absurd (h heq) (by omega)

variable (H : ContainerRuns)

/-- The newest run that a reading shows by itself. -/
def Reading.shows (r : Reading) : ℕ :=
  max (firstWith H.restartCount r.count) (r.start.elim 0 (firstWith H.startedAt))

/-- The time of the start as it is read. -/
def Reading.stamp (r : Reading) : ℤ := r.start.elim 0 H.startedAt

/-- Whether one of the facts is not what the reading before it had. -/
def Reading.Differs (r last : Reading) : Prop :=
  H.restartCount r.count ≠ H.restartCount last.count ∨
    (r.stamp H ≠ last.stamp H ∧ r.stamp H ≠ 0)

instance (r last : Reading) : Decidable (r.Differs H last) := by
  unfold Reading.Differs
  infer_instance

/-- The newest run that some readings show. -/
def newestShown (rs : List Reading) : ℕ := (rs.map (Reading.shows H)).foldr max 0

theorem shows_le_newestShown {rs : List Reading} {r : Reading} (h : r ∈ rs) :
    r.shows H ≤ newestShown H rs := by
  unfold newestShown
  induction rs with
  | nil => simp at h
  | cons x rs ih =>
      rw [List.map_cons, List.foldr_cons]
      rcases List.mem_cons.1 h with rfl | h
      · exact le_max_left _ _
      · exact (ih h).trans (le_max_right _ _)

/-- Whether a reading, after others, is the first to show a restart. The first reading of all
is where the observation starts. -/
def FirstShown (before : List Reading) (r : Reading) : Prop :=
  before ≠ [] ∧ newestShown H before < r.shows H

instance (before : List Reading) (r : Reading) : Decidable (FirstShown H before r) := by
  unfold FirstShown
  infer_instance

/-- A reading that shows a newer run differs from the reading before it. -/
theorem differs_of_firstShown {before : List Reading} {last r : Reading} (hlast : last ∈ before)
    (h : FirstShown H before r) : r.Differs H last := by
  have hle := shows_le_newestShown H hlast
  have hnewer : last.shows H < r.shows H := lt_of_le_of_lt hle h.2
  by_contra hsame
  unfold Reading.Differs at hsame
  rw [not_or, not_not, not_and_or, not_not, not_not] at hsame
  obtain ⟨hcount, hstamp⟩ := hsame
  have hfirst := firstWith_congr hcount
  unfold Reading.shows at hnewer
  rw [hfirst] at hnewer
  rcases hr : r.start with _ | j
  · rw [hr] at hnewer
    simp at hnewer
  · have hnonzero : r.stamp H ≠ 0 := by
      unfold Reading.stamp
      rw [hr]
      exact H.startedAt_ne_zero j
    have heq : r.stamp H = last.stamp H := hstamp.resolve_right hnonzero
    rcases hl : last.start with _ | j'
    · rw [heq] at hnonzero
      unfold Reading.stamp at hnonzero
      rw [hl] at hnonzero
      exact hnonzero rfl
    · unfold Reading.stamp at heq
      rw [hr, hl] at heq
      have hfirst' : firstWith H.startedAt j = firstWith H.startedAt j' := firstWith_congr heq
      rw [hr, hl] at hnewer
      simp only [Option.elim_some] at hnewer
      rw [hfirst'] at hnewer
      exact lt_irrefl _ hnewer

/-! ## The polls of a run -/

/-- A poll and the reading it took of the container, nothing when the inspect missed it. -/
structure Poll where
  input : IncidentInput
  reading : Option Reading

/-- What a poll's inspect lists of a role is the container with the facts of the reading. -/
def Poll.Inspects (name role : String) (p : Poll) : Prop :=
  match p.reading with
  | none => ∀ c ∈ p.input.containers, c.1 ≠ role
  | some r => ∃ pre state post, p.input.containers = pre ++ (role, state) :: post ∧
      (∀ c ∈ pre, c.1 ≠ role) ∧ (∀ c ∈ post, c.1 ≠ role) ∧ state.name = name ∧
      state.restartCount = H.restartCount r.count ∧ state.startedAt = r.stamp H

/-- The readings of some polls. -/
def readings (polls : List Poll) : List Reading := polls.filterMap Poll.reading

/-- The restarts that become visible in some readings, after others. -/
def visibleAfter : List Reading → List Reading → ℕ
  | _, [] => 0
  | before, r :: rs =>
    (if FirstShown H before r then 1 else 0) + visibleAfter (before ++ [r]) rs

/-- The restarts that become visible in some polls. -/
def visibleRestarts (polls : List Poll) : ℕ := visibleAfter H [] (readings polls)

/-- Whether an operation is the event of a restart of a role. -/
def isRestart (role : String) : IncidentOp → Bool
  | .event .containerRestart _ subject _ _ => subject == role
  | _ => false

/-- The events about a role that the tracker writes over some polls. -/
def restartEvents (role : String) (polls : List Poll) : List IncidentOp :=
  (trackAll (polls.map Poll.input)).2.filter (isRestart role)

/-- The condition under which the events are the restarts: a reading in which a fact differs
from the reading before it shows a run newer than every run shown before. -/
def FactsArriveTogether (polls : List Poll) : Prop :=
  ∀ before r after, readings polls = before ++ r :: after →
    ∀ last ∈ before.getLast?, r.Differs H last → newestShown H before < r.shows H

/-! ## One poll -/

theorem visibleAfter_concat (before rs : List Reading) (r : Reading) :
    visibleAfter H before (rs ++ [r]) =
      visibleAfter H before rs + if FirstShown H (before ++ rs) r then 1 else 0 := by
  induction rs generalizing before with
  | nil => simp [visibleAfter]
  | cons x rs ih =>
      rw [List.cons_append, visibleAfter, visibleAfter, ih, List.append_assoc,
        List.singleton_append]
      omega

theorem readings_concat (polls : List Poll) (p : Poll) :
    readings (polls ++ [p]) = readings polls ++ p.reading.toList := by
  unfold readings
  rw [List.filterMap_append]
  cases h : p.reading with
  | none => simp [h]
  | some r => simp [h]

theorem factsArriveTogether_concat {polls : List Poll} {p : Poll} {r : Reading}
    (hr : p.reading = some r) :
    FactsArriveTogether H (polls ++ [p]) ↔ FactsArriveTogether H polls ∧
      ∀ last ∈ (readings polls).getLast?, r.Differs H last →
        newestShown H (readings polls) < r.shows H := by
  unfold FactsArriveTogether
  rw [readings_concat, hr, Option.toList_some]
  constructor
  · intro h
    refine ⟨?_, ?_⟩
    · intro before x after hsplit
      exact h before x (after ++ [r]) (by rw [hsplit]; simp)
    · exact h (readings polls) r [] rfl
  · rintro ⟨hbefore, hlast⟩ before x after hsplit
    rcases List.eq_nil_or_concat after with rfl | ⟨after', y, rfl⟩
    · obtain ⟨hpre, hx⟩ := List.append_inj' hsplit rfl
      rw [List.cons.injEq] at hx
      rw [← hpre, ← hx.1]
      exact hlast
    · have hsplit' : readings polls ++ [r] = (before ++ x :: after') ++ [y] := by
        rw [hsplit]
        simp
      exact hbefore before x after' (List.append_inj' hsplit' rfl).1

/-- Containers of other roles leave what was seen of a role, and write no events about it. -/
theorem containers_frame {role : String} (now : ℤ) (seen : Std.ExtTreeMap String ContainerState)
    {containers : List (String × ContainerState)} (h : ∀ c ∈ containers, c.1 ≠ role) :
    (Machine.run (containerStep now) seen containers).1[role]? = seen[role]? ∧
      (Machine.run (containerStep now) seen containers).2.filter (isRestart role) = [] := by
  induction containers generalizing seen with
  | nil => exact ⟨rfl, rfl⟩
  | cons c containers ih =>
      have hc : c.1 ≠ role := h c (by simp)
      obtain ⟨hseen, hops⟩ := ih (containerStep now seen c).1 fun x hx => h x (by simp [hx])
      rw [Machine.run_cons, List.filter_append, hops, List.append_nil]
      refine ⟨?_, ?_⟩
      · rw [hseen]
        unfold containerStep
        rw [Std.ExtTreeMap.getElem?_insert, if_neg]
        simpa using hc
      · rw [List.filter_eq_nil_iff]
        intro op hop
        unfold containerStep at hop
        dsimp only at hop
        split at hop
        · simp at hop
        · split at hop
          · simp at hop
          · rw [List.mem_singleton.1 hop]
            simpa [isRestart] using hc

/-- The event of a restart of a role, when the state seen before is of another run. -/
def restartOp (now : ℤ) (role : String) (seen : Option ContainerState) (cur : ContainerState) :
    List IncidentOp :=
  match seen with
  | none => []
  | some prev =>
    match restartDetail prev cur with
    | none => []
    | some detail =>
      [.event .containerRestart
        (if prev.startedAt < cur.startedAt then cur.startedAt else now) role detail none]

theorem filter_restartOp (now : ℤ) (role : String) (seen : Option ContainerState)
    (cur : ContainerState) :
    (restartOp now role seen cur).filter (isRestart role) = restartOp now role seen cur := by
  apply List.filter_eq_self.2
  intro op hop
  unfold restartOp at hop
  split at hop
  · simp at hop
  · split at hop
    · simp at hop
    · rw [List.mem_singleton.1 hop]
      exact beq_self_eq_true _

/-- What an inspect that lists a role once does with it. -/
theorem containers_once {role : String} (now : ℤ)
    (seen : Std.ExtTreeMap String ContainerState) {pre post : List (String × ContainerState)}
    (state : ContainerState) (hpre : ∀ c ∈ pre, c.1 ≠ role) (hpost : ∀ c ∈ post, c.1 ≠ role) :
    (Machine.run (containerStep now) seen (pre ++ (role, state) :: post)).1[role]? = some state ∧
      (Machine.run (containerStep now) seen (pre ++ (role, state) :: post)).2.filter
        (isRestart role) = restartOp now role seen[role]? state := by
  obtain ⟨hseen, hops⟩ := containers_frame now seen hpre
  set mid := (Machine.run (containerStep now) seen pre).1 with hmid
  obtain ⟨hseen', hops'⟩ := containers_frame now (containerStep now mid (role, state)).1 hpost
  rw [Machine.run_append, Machine.run_cons, ← hmid]
  refine ⟨?_, ?_⟩
  · rw [hseen']
    unfold containerStep
    rw [Std.ExtTreeMap.getElem?_insert_self]
  · rw [List.filter_append, List.filter_append, hops, hops', List.nil_append, List.append_nil,
      ← filter_restartOp, ← hseen]
    rfl

/-- The state that a reading shows of a container. -/
def Shown (name : String) (r : Reading) (state : ContainerState) : Prop :=
  state.name = name ∧ state.restartCount = H.restartCount r.count ∧ state.startedAt = r.stamp H

/-- The tracker describes a restart exactly when a fact differs. -/
theorem restartDetail_isSome_iff {name : String} {last r : Reading} {prev cur : ContainerState}
    (hprev : Shown H name last prev) (hcur : Shown H name r cur) :
    (restartDetail prev cur).isSome = true ↔ r.Differs H last := by
  obtain ⟨hname, hcount, hstamp⟩ := hprev
  obtain ⟨hname', hcount', hstamp'⟩ := hcur
  unfold restartDetail Reading.Differs
  rw [hname, hname', hcount, hcount', hstamp, hstamp', if_neg (not_not.2 rfl)]
  split
  · next h => simp [h]
  · next h =>
      split
      · next h' => simp [h']
      · next h' =>
          rw [not_not] at h
          simpa [h] using h'

/-! ## Runs -/

/-- The events about a role come from the inspect alone. -/
theorem filter_step_isRestart (role : String) (t : IncidentTracker) (input : IncidentInput) :
    (t.step input).2.filter (isRestart role) =
      (Machine.run (containerStep input.now) t.containers input.containers).2.filter
        (isRestart role) := by
  have hdown : ∀ (d : DownTracker) (kind : IncidentKind) (now : ℤ) (up : Bool) (detail : String),
      (d.step kind now up detail).2.filter (isRestart role) = [] := by
    intro d kind now up detail
    rw [List.filter_eq_nil_iff]
    intro op hop
    unfold DownTracker.step at hop
    dsimp only at hop
    split at hop
    · dsimp only at hop
      split at hop
      · rw [List.mem_singleton.1 hop]
        exact Bool.false_ne_true
      · simp at hop
    · split at hop
      · rw [List.mem_singleton.1 hop]
        exact Bool.false_ne_true
      · simp at hop
  have hxids : (input.xids.map xidOp).filter (isRestart role) = [] := by
    rw [List.filter_eq_nil_iff]
    intro op hop
    obtain ⟨x, -, rfl⟩ := List.mem_map.1 hop
    exact Bool.false_ne_true
  unfold IncidentTracker.step
  dsimp only
  rw [List.filter_append, List.filter_append, List.filter_append, hdown, hdown, hxids]
  simp

variable {H}

/-- What the tracker knows of a role after some polls is what the last reading showed. -/
def Remembers (H : ContainerRuns) (name role : String) (polls : List Poll) : Prop :=
  match (readings polls).getLast? with
  | none => (trackAll (polls.map Poll.input)).1.containers[role]? = none
  | some last => ∃ state, (trackAll (polls.map Poll.input)).1.containers[role]? = some state ∧
      Shown H name last state

theorem restartEvents_concat (role : String) (polls : List Poll) (p : Poll) :
    restartEvents role (polls ++ [p]) = restartEvents role polls ++
      (Machine.run (containerStep p.input.now)
        (trackAll (polls.map Poll.input)).1.containers p.input.containers).2.filter
          (isRestart role) := by
  unfold restartEvents
  rw [List.map_append, List.map_singleton, trackAll_concat, List.filter_append,
    filter_step_isRestart]

theorem containers_concat (polls : List Poll) (p : Poll) :
    (trackAll ((polls ++ [p]).map Poll.input)).1.containers =
      (Machine.run (containerStep p.input.now)
        (trackAll (polls.map Poll.input)).1.containers p.input.containers).1 := by
  rw [List.map_append, List.map_singleton, trackAll_concat]
  rfl

/-- A poll whose inspect misses the role changes nothing about it. -/
theorem missed_poll {name role : String} {polls : List Poll} {p : Poll}
    (hp : p.Inspects H name role) (hr : p.reading = none)
    (hremembers : Remembers H name role polls) :
    Remembers H name role (polls ++ [p]) ∧
      restartEvents role (polls ++ [p]) = restartEvents role polls := by
  unfold Poll.Inspects at hp
  rw [hr] at hp
  obtain ⟨hseen, hops⟩ := containers_frame p.input.now
    (trackAll (polls.map Poll.input)).1.containers hp
  refine ⟨?_, ?_⟩
  · unfold Remembers at hremembers ⊢
    rw [readings_concat, hr, Option.toList_none, List.append_nil, containers_concat, hseen]
    exact hremembers
  · rw [restartEvents_concat, hops, List.append_nil]

/-- A poll with a reading writes one event when a fact differs from the last reading. -/
theorem read_poll {name role : String} {polls : List Poll} {p : Poll} {r : Reading}
    (hp : p.Inspects H name role) (hr : p.reading = some r)
    (hremembers : Remembers H name role polls) :
    Remembers H name role (polls ++ [p]) ∧
      (restartEvents role (polls ++ [p])).length = (restartEvents role polls).length +
        if ∃ last ∈ (readings polls).getLast?, r.Differs H last then 1 else 0 := by
  unfold Poll.Inspects at hp
  rw [hr] at hp
  obtain ⟨pre, state, post, hcontainers, hpre, hpost, hshown⟩ := hp
  obtain ⟨hseen, hops⟩ := containers_once p.input.now
    (trackAll (polls.map Poll.input)).1.containers state hpre hpost
  rw [← hcontainers] at hseen hops
  refine ⟨?_, ?_⟩
  · unfold Remembers
    rw [readings_concat, hr, Option.toList_some, List.getLast?_concat, containers_concat, hseen]
    exact ⟨state, rfl, hshown⟩
  · rw [restartEvents_concat, hops, List.length_append]
    congr 1
    unfold Remembers at hremembers
    cases hlast : (readings polls).getLast? with
    | none =>
        rw [hlast] at hremembers
        rw [hremembers]
        simp [restartOp]
    | some last =>
        rw [hlast] at hremembers
        obtain ⟨prev, hprev, hshown'⟩ := hremembers
        have hdetail := restartDetail_isSome_iff H hshown' hshown
        rw [hprev]
        unfold restartOp
        cases hd : restartDetail prev state with
        | none =>
            rw [hd] at hdetail
            have hsame : ¬ r.Differs H last := fun h => absurd (hdetail.2 h) Bool.false_ne_true
            simp [hsame, hd]
        | some detail =>
            rw [hd] at hdetail
            have hdiffers : r.Differs H last := hdetail.1 rfl
            simp [hdiffers, hd]

/-- After every run there are at least as many events as restarts that became visible, and as
many exactly when every fact arrived together with its run. -/
theorem restarts_counted {name role : String} (polls : List Poll)
    (inspects : ∀ p ∈ polls, p.Inspects H name role) :
    Remembers H name role polls ∧
      visibleRestarts H polls ≤ (restartEvents role polls).length ∧
      ((restartEvents role polls).length = visibleRestarts H polls ↔
        FactsArriveTogether H polls) := by
  induction polls using List.reverseRecOn with
  | nil =>
      refine ⟨rfl, Nat.zero_le _, ?_⟩
      constructor
      · intro _ before r after hsplit
        exact absurd hsplit (by simp [readings])
      · intro _
        rfl
  | append_singleton polls p ih =>
      obtain ⟨hremembers, hle, hiff⟩ := ih fun q hq => inspects q (by simp [hq])
      have hp := inspects p (by simp)
      cases hr : p.reading with
      | none =>
          obtain ⟨hremembers', hevents⟩ := missed_poll hp hr hremembers
          have hreadings : readings (polls ++ [p]) = readings polls := by
            rw [readings_concat, hr, Option.toList_none, List.append_nil]
          unfold visibleRestarts FactsArriveTogether
          rw [hevents, hreadings]
          exact ⟨hremembers', hle, hiff⟩
      | some r =>
          obtain ⟨hremembers', hevents⟩ := read_poll hp hr hremembers
          have hvisible : visibleRestarts H (polls ++ [p]) = visibleRestarts H polls +
              if FirstShown H (readings polls) r then 1 else 0 := by
            unfold visibleRestarts
            rw [readings_concat, hr, Option.toList_some, visibleAfter_concat, List.nil_append]
          -- a visible restart always differs from the last reading
          have himp : FirstShown H (readings polls) r →
              ∃ last ∈ (readings polls).getLast?, r.Differs H last := by
            intro hshown
            obtain ⟨last, hlast⟩ := List.getLast?_isSome.2 hshown.1 |> Option.isSome_iff_exists.1
            exact ⟨last, hlast, differs_of_firstShown H (List.mem_of_getLast? hlast) hshown⟩
          have hlast : (∀ last ∈ (readings polls).getLast?, r.Differs H last →
              newestShown H (readings polls) < r.shows H) ↔
                ((∃ last ∈ (readings polls).getLast?, r.Differs H last) →
                  FirstShown H (readings polls) r) := by
            constructor
            · rintro h ⟨last, hl, hd⟩
              have hne : readings polls ≠ [] := by
                intro hnil
                rw [hnil] at hl
                simp at hl
              exact ⟨hne, h last hl hd⟩
            · intro h last hl hd
              exact (h ⟨last, hl, hd⟩).2
          rw [hevents, hvisible, factsArriveTogether_concat H hr, hlast, ← hiff]
          refine ⟨hremembers', ?_, ?_⟩
          · by_cases hshown : FirstShown H (readings polls) r
            · rw [if_pos hshown, if_pos (himp hshown)]
              omega
            · rw [if_neg hshown]
              omega
          · by_cases hshown : FirstShown H (readings polls) r
            · rw [if_pos hshown, if_pos (himp hshown)]
              simp [hshown]
            · rw [if_neg hshown]
              by_cases hd : ∃ last ∈ (readings polls).getLast?, r.Differs H last
              · rw [if_pos hd]
                constructor
                · intro h
                  omega
                · rintro ⟨-, h⟩
                  exact absurd (h hd) hshown
              · rw [if_neg hd]
                constructor
                · intro h
                  exact ⟨by omega, fun h' => absurd h' hd⟩
                · rintro ⟨h, -⟩
                  omega

/-- Over every history of a container and every run of polls that read it, the tracker writes
one event for each restart that becomes visible, and no other, exactly when every reading in
which a fact differs from the reading before it shows a run newer than every run shown
before. -/
theorem one_event_per_restart_iff (H : ContainerRuns) (name role : String) (polls : List Poll)
    (inspects : ∀ p ∈ polls, p.Inspects H name role) :
    (restartEvents role polls).length = visibleRestarts H polls ↔ FactsArriveTogether H polls :=
  (restarts_counted polls inspects).2.2

/-- A container that is started anew every hour, the count going up with the second run. -/
def hourlyRuns : ContainerRuns where
  restartCount := id
  startedAt j := 1000 + 3600 * j
  count_mono := monotone_id
  start_mono := by
    intro a b h
    dsimp only
    omega
  start_pos := by decide

theorem shows_hourlyRuns (r : Reading) : r.shows hourlyRuns = max r.count (r.start.elim 0 id) := by
  have hcount : Function.Injective hourlyRuns.restartCount := Function.injective_id
  have hstart : Function.Injective hourlyRuns.startedAt := by
    intro a b h
    have h' : (1000 + 3600 * a : ℤ) = 1000 + 3600 * b := h
    omega
  unfold Reading.shows
  rw [firstWith_of_injective hcount]
  cases r.start with
  | none => rfl
  | some j => rw [Option.elim_some, firstWith_of_injective hstart, Option.elim_some, id]

/-- A poll that reads the container in a serving role. -/
def readAt (now : ℤ) (r : Reading) : Poll where
  input := ⟨now, true, "", true, "", [("serve", ⟨"glm", "running", r.count, r.stamp hourlyRuns⟩)], []⟩
  reading := some r

theorem readAt_inspects (now : ℤ) (r : Reading) :
    (readAt now r).Inspects hourlyRuns "glm" "serve" :=
  ⟨[], _, [], rfl, by simp, by simp, rfl, rfl, rfl⟩

theorem readAt_all_inspect (ps : List (ℤ × Reading)) :
    ∀ p ∈ ps.map fun x => readAt x.1 x.2, p.Inspects hourlyRuns "glm" "serve" := by
  intro p hp
  obtain ⟨x, -, rfl⟩ := List.mem_map.1 hp
  exact readAt_inspects _ _

/-- A restart whose two facts are read in one poll. -/
def readTogether : List Poll :=
  [(1005, ⟨0, some 0⟩), (4605, ⟨1, some 1⟩)].map fun x => readAt x.1 x.2

theorem restart_read_at_once : FactsArriveTogether hourlyRuns readTogether := by
  apply (one_event_per_restart_iff hourlyRuns "glm" "serve" readTogether
    (readAt_all_inspect _)).1
  have hevents : (restartEvents "serve" readTogether).length = 1 := by decide
  rw [hevents]
  simp [readTogether, visibleRestarts, visibleAfter, readings, readAt, FirstShown, newestShown,
    shows_hourlyRuns]

/-- A restart whose count is read before its time of start. -/
def countFirst : List Poll :=
  [(1005, ⟨0, some 0⟩), (4600, ⟨1, some 0⟩), (4605, ⟨1, some 1⟩)].map fun x => readAt x.1 x.2

/-- A run whose time of start reads 0 once. -/
def stampBlank : List Poll :=
  [(1005, ⟨0, some 0⟩), (1010, ⟨0, none⟩), (1015, ⟨0, some 0⟩)].map fun x => readAt x.1 x.2

/-- A restart read one fact at a time is two events, and a time of start that reads 0 once is
an event without a restart. -/
theorem late_facts_counted :
    ((∀ p ∈ countFirst, p.Inspects hourlyRuns "glm" "serve") ∧
      visibleRestarts hourlyRuns countFirst = 1 ∧
        (restartEvents "serve" countFirst).length = 2) ∧
    (∀ p ∈ stampBlank, p.Inspects hourlyRuns "glm" "serve") ∧
      visibleRestarts hourlyRuns stampBlank = 0 ∧
        (restartEvents "serve" stampBlank).length = 1 := by
  refine ⟨⟨readAt_all_inspect _, ?_, by decide⟩, readAt_all_inspect _, ?_, by decide⟩
  · simp [countFirst, visibleRestarts, visibleAfter, readings, readAt, FirstShown, newestShown,
      shows_hourlyRuns]
  · simp [stampBlank, visibleRestarts, visibleAfter, readings, readAt, FirstShown, newestShown,
      shows_hourlyRuns]

end Lss.Analysis.ContainerRestarts
