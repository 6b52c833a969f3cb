import Lss.Analysis.XidOnce
import Lss.Model.XidMarkers

/-!
# No fault report lost over restarts

A report of the last seven days is booked, or the hot path or a back-fill in flight still reads
it, or the next start does. The back-fill of a gap is the exception: when it fails, or is cut off,
after the one of the start is complete, nothing remembers it.
-/

set_option autoImplicit false

namespace Lss.Analysis.XidMarkers

open Lss.Model
open Lss.Analysis.XidOnce

variable {parseIso : String → Option ℤ}

/-! ## Booked lines -/

/-- The incident of a line is in the table, under some reading of the addresses. -/
def LineBooked (parseIso : String → Option ℤ) (rows : List IncidentRow) (line : String) : Prop :=
  ∃ pciMap e, parseXidLine parseIso pciMap line = some e ∧ Booked rows e

theorem booked_iff (rows : List IncidentRow) (e : XidEvent) :
    Booked rows e ↔ ∃ row ∈ rows, row.dedupeKey = some (xidKey e.gpuLabel e.xid e.ts) := by
  unfold Booked eventBooked
  dsimp only
  rw [List.any_eq_true]
  simp only [beq_iff_eq]

/-- Booking a report leaves the table alone, or puts a row with its key at the end. -/
theorem bookOp_xidOp_cases (rows : List IncidentRow) (e : XidEvent) :
    (bookOp rows (xidOp e) = rows ∧ Booked rows e) ∨
      ∃ row, bookOp rows (xidOp e) = rows ++ [row] ∧
        row.dedupeKey = some (xidKey e.gpuLabel e.xid e.ts) := by
  -- the detail plays no part where there is a key
  have same : ∀ detail, eventBooked rows .xid e.ts detail
      (some (xidKey e.gpuLabel e.xid e.ts)) = true → Booked rows e := fun _ h => h
  unfold xidOp bookOp eventIncident
  dsimp only
  split
  · rename_i h
    exact Or.inl ⟨rfl, same _ h⟩
  · exact Or.inr ⟨_, rfl, rfl⟩

theorem booked_append {rows : List IncidentRow} {e : XidEvent} (h : Booked rows e)
    (more : List IncidentRow) : Booked (rows ++ more) e := by
  obtain ⟨row, hrow, key⟩ := (booked_iff rows e).mp h
  exact (booked_iff _ e).mpr ⟨row, List.mem_append_left more hrow, key⟩

theorem booked_bookOp (rows : List IncidentRow) (e : XidEvent) :
    Booked (bookOp rows (xidOp e)) e := by
  cases bookOp_xidOp_cases rows e with
  | inl h =>
      rw [h.1]
      exact h.2
  | inr h =>
      obtain ⟨row, append, key⟩ := h
      rw [append]
      exact (booked_iff _ e).mpr ⟨row, List.mem_append_right rows List.mem_cons_self, key⟩

theorem bookOp_keeps {rows : List IncidentRow} {e : XidEvent} (h : Booked rows e) (x : XidEvent) :
    Booked (bookOp rows (xidOp x)) e := by
  cases bookOp_xidOp_cases rows x with
  | inl same =>
      rw [same.1]
      exact h
  | inr new =>
      obtain ⟨row, append, _⟩ := new
      rw [append]
      exact booked_append h [row]

/-- Booking takes nothing out of the table, and every report it is given is in it after. -/
theorem booked_bookXids (rows : List IncidentRow) (xids : List XidEvent) :
    (∀ e, Booked rows e → Booked (bookXids rows xids) e) ∧
      ∀ e ∈ xids, Booked (bookXids rows xids) e := by
  unfold bookXids
  induction xids generalizing rows with
  | nil => exact ⟨fun _ h => h, fun _ he => nomatch he⟩
  | cons x xids ih =>
      rw [List.map_cons, List.foldl_cons]
      obtain ⟨keeps, books⟩ := ih (bookOp rows (xidOp x))
      constructor
      · exact fun e h => keeps e (bookOp_keeps h x)
      · intro e he
        cases List.mem_cons.mp he with
        | inl first =>
            apply keeps
            rw [first]
            exact booked_bookOp rows x
        | inr later => exact books e later

theorem LineBooked.more {rows : List IncidentRow} {line : String}
    (h : LineBooked parseIso rows line) (xids : List XidEvent) :
    LineBooked parseIso (bookXids rows xids) line := by
  obtain ⟨pciMap, e, parsed, booked⟩ := h
  exact ⟨pciMap, e, parsed, (booked_bookXids rows xids).1 e booked⟩

/-- A line with a stamp is a report, whatever the addresses are. -/
theorem parse_of_stamp {line : String} {t : ℤ} (h : stampOf parseIso line = some t)
    (pciMap : PciMap) : ∃ e, parseXidLine parseIso pciMap line = some e := by
  rw [← stampOf_eq pciMap] at h
  obtain ⟨e, parsed, _⟩ := Option.map_eq_some_iff.mp h
  exact ⟨e, parsed⟩

theorem lineBooked_backfill {line : String} {t : ℤ} (stamped : stampOf parseIso line = some t)
    (rows : List IncidentRow) (smi : PciMap) {lines : List String}
    (shown : line ∈ lines.take backfillMaxEvents) :
    LineBooked parseIso (bookXids rows (backfillXids parseIso smi lines)) line := by
  obtain ⟨e, parsed⟩ := parse_of_stamp stamped smi
  refine ⟨smi, e, parsed, (booked_bookXids rows _).2 e ?_⟩
  exact List.mem_filterMap.mpr ⟨line, shown, parsed⟩

/-! ## A truthful journal -/

/-- A hot read shows every line that was stamped from some time on and before it. -/
def TruePoll (parseIso : String → Option ℤ) (log : List String) (r : CollectorRun) (p : XidPoll) :
    Prop :=
  ∀ lines, p.read = some lines → ∀ line ∈ log, ∀ t, stampOf parseIso line = some t →
    (hotWindow r.poller.xidSince p.now).1 ≤ t → t < p.now → line ∈ lines

/-- The stretch of time a back-fill is to read. -/
def Backfill.Covers (b : Backfill) (t : ℤ) : Prop :=
  b.since ≤ t ∧ (∀ stop ∈ b.stop, t < stop) ∧ t < b.spawned

/-- A back-fill that completes was shown every line of its stretch. -/
def TrueBackfill (parseIso : String → Option ℤ) (log : List String) (b : Backfill)
    (lines : List String) : Prop :=
  ∀ line ∈ log, ∀ t, stampOf parseIso line = some t → Backfill.Covers b t →
    line ∈ lines.take backfillMaxEvents

/-- Time does not go back, and what is read is true. -/
def TrueStep (parseIso : String → Option ℤ) (log : List String) (clock : ℤ)
    (st : XidKeeper) : XidRunEvent → Prop
  | .start now _ => clock ≤ now
  | .poll p => clock ≤ p.now ∧ ∀ r, st.run = some r → TruePoll parseIso log r p
  | .backfilled b _ lines => TrueBackfill parseIso log b lines
  | _ => True

/-- The time after an event. -/
def clockAfter (clock : ℤ) : XidRunEvent → ℤ
  | .start now _ => now
  | .poll p => p.now
  | _ => clock

/-! ## What is to be shown -/

section Log

variable (parseIso : String → Option ℤ) (log : List String)

/-- The reports of the last seven days that lie in some stretch of time and are not booked. -/
def Owed (clock : ℤ) (rows : List IncidentRow) (b : Backfill) : Prop :=
  ∃ line ∈ log, ∃ t, stampOf parseIso line = some t ∧ clock - backfillReach ≤ t ∧
    Backfill.Covers b t ∧ ¬LineBooked parseIso rows line

/-- Every report of the last seven days is booked, or the next hot read or a back-fill in flight
reads it, or the next start does. -/
def NoneLost (clock : ℤ) (st : XidKeeper) : Prop :=
  ∀ line ∈ log, ∀ t, stampOf parseIso line = some t → clock - backfillReach ≤ t →
    LineBooked parseIso st.store.incidents line ∨
      (∃ r, st.run = some r ∧ r.scan = true ∧ r.poller.xidSince - 5 ≤ t) ∨
      (∃ r, st.run = some r ∧ ∃ b ∈ r.backfills, Backfill.Covers b t) ∨
      st.store.startsFrom clock ≤ t

/-- What a back-fill that failed was to read is booked, or the next start reads it. -/
def Retried (clock : ℤ) (st : XidKeeper) : Prop :=
  ∀ r, st.run = some r → ∀ b ∈ r.failed, ∀ line ∈ log, ∀ t, stampOf parseIso line = some t →
    clock - backfillReach ≤ t → Backfill.Covers b t →
      LineBooked parseIso st.store.incidents line ∨ st.store.startsFrom clock ≤ t

/-- A gap is given up: its back-fill fails or is cut off with a report in it that is not booked,
and the back-fill of the start is complete; or that one completes after the other failed. -/
def GivesUp (clock : ℤ) (st : XidKeeper) : XidRunEvent → Prop
  | .backfillFailed b => ∃ r, st.run = some r ∧ b ∈ r.backfills ∧ b.startup = false ∧
      st.store.backfillFrom = none ∧ Owed parseIso log clock st.store.incidents b
  | .backfilled b smi lines => ∃ r, st.run = some r ∧ b ∈ r.backfills ∧ b.startup = true ∧
      ∃ gap ∈ r.failed, gap.startup = false ∧ Owed parseIso log clock
        (bookXids st.store.incidents (backfillXids parseIso smi lines)) gap
  | .stop booked => ∃ r, st.run = some r ∧ st.store.backfillFrom = none ∧
      ∃ b ∈ r.backfills, b.startup = false ∧
        Owed parseIso log clock (bookXids st.store.incidents booked) b
  | _ => False

end Log

/-! ## What holds between events -/

section Kept

variable {log : List String} {clock : ℤ} {store : XidStore} {r : CollectorRun}

/-- A line of the last seven days. -/
def Recent (parseIso : String → Option ℤ) (log : List String) (clock : ℤ) (line : String)
    (t : ℤ) : Prop :=
  line ∈ log ∧ stampOf parseIso line = some t ∧ clock - backfillReach ≤ t

/-- While the collector is stopped, what lies before the next start is booked. -/
structure Stopped (parseIso : String → Option ℤ) (log : List String) (clock : ℤ)
    (store : XidStore) : Prop where
  marks : ∀ m ∈ store.backfillFrom.or store.scanUntil, m ≤ clock
  scanned : ∀ m ∈ store.scanUntil, m ≤ clock
  reached : ∀ line t, Recent parseIso log clock line t →
    t < (store.backfillFrom.or store.scanUntil).getD 0 → LineBooked parseIso store.incidents line

/-- What the run has read of its own time is booked, or the back-fill of a gap reads it. What was
before it is booked, or lies after the mark of the start's back-fill. -/
structure Running (parseIso : String → Option ℤ) (log : List String) (clock : ℤ)
    (store : XidStore) (r : CollectorRun) : Prop where
  started : r.startedAt ≤ r.poller.xidSince
  since_le : r.poller.xidSince ≤ clock
  seen : ∀ s ∈ r.poller.xidSeen, LineBooked parseIso store.incidents s.2
  scanned : ∀ m ∈ store.scanUntil, m ≤ r.poller.xidSince
  from_le : ∀ m ∈ store.backfillFrom, m ≤ r.startedAt
  reached : ∀ m ∈ store.backfillFrom, ∀ line t, Recent parseIso log clock line t → t < m →
    LineBooked parseIso store.incidents line
  paid : store.backfillFrom = none → ∀ line t, Recent parseIso log clock line t →
    t < r.startedAt → LineBooked parseIso store.incidents line
  read : ∀ line t, Recent parseIso log clock line t → r.startedAt ≤ t → t < r.poller.xidSince →
    LineBooked parseIso store.incidents line ∨
      (∃ b ∈ r.backfills, b.startup = false ∧ Backfill.Covers b t) ∨
      (store.backfillFrom ≠ none ∧ ∃ b ∈ r.failed, b.startup = false ∧ Backfill.Covers b t)
  startup : ∀ b ∈ r.backfills, b.startup = true →
    b.stop = none ∧ b.spawned = r.startedAt ∧ store.backfillFrom = some b.since
  once : r.backfills.Pairwise fun a b => ¬(a.startup = true ∧ b.startup = true)
  spawned : ∀ b ∈ r.failed, b.startup = true → b.spawned ≤ r.startedAt
  given_up : store.backfillFrom = none → ∀ b ∈ r.failed, b.startup = false →
    ¬Owed parseIso log clock store.incidents b
  unscanned : r.scan = false → store.backfillFrom ≠ none ∧ r.backfills = [] ∧
    r.poller.xidSince = r.startedAt

/-- The invariant of a collector. -/
structure Kept (parseIso : String → Option ℤ) (log : List String) (clock : ℤ)
    (st : XidKeeper) : Prop where
  late : backfillReach ≤ clock
  stopped : st.run = none → Stopped parseIso log clock st.store
  running : ∀ r, st.run = some r → Running parseIso log clock st.store r

theorem Recent.earlier {now : ℤ} {line : String} {t : ℤ} (h : Recent parseIso log now line t)
    (le : clock ≤ now) : Recent parseIso log clock line t :=
  ⟨h.1, h.2.1, (sub_le_sub_right le _).trans h.2.2⟩

theorem not_owed_more {b : Backfill} {rows : List IncidentRow} {now : ℤ}
    (h : ¬Owed parseIso log clock rows b) (le : clock ≤ now) (xids : List XidEvent) :
    ¬Owed parseIso log now (bookXids rows xids) b := by
  rintro ⟨line, hline, t, stamped, recent, covered, unbooked⟩
  refine h ⟨line, hline, t, stamped, ?_, covered, fun booked => unbooked (booked.more xids)⟩
  exact (sub_le_sub_right le _).trans recent

/-- The start of a run. -/
theorem Stopped.start (h : Stopped parseIso log clock store) {now : ℤ} (le : clock ≤ now)
    (late : backfillReach ≤ clock) (scan : Bool) :
    ∀ r, (store.start now scan).run = some r →
      Running parseIso log now (store.start now scan).store r := by
  intro r hr
  obtain rfl := Option.some.inj hr
  have point_le : (store.backfillFrom.or store.scanUntil).getD 0 ≤ now := by
    cases hm : store.backfillFrom.or store.scanUntil with
    | none =>
        have reach : (0 : ℤ) ≤ backfillReach := by decide
        exact reach.trans (late.trans le)
    | some m => exact (h.marks m hm).trans le
  have from_le : store.startsFrom now ≤ now := max_le point_le (sub_le_self now (by decide))
  refine
    { started := le_refl now
      since_le := le_refl now
      seen := fun _ hs => nomatch hs
      scanned := fun m hm => (h.scanned m hm).trans le
      from_le := ?_
      reached := ?_
      paid := fun hnone => nomatch hnone
      read := fun _ _ _ ge lt => absurd ge (not_le.mpr lt)
      startup := ?_
      once := ?_
      spawned := fun _ hb => nomatch hb
      given_up := fun hnone => nomatch hnone
      unscanned := ?_ }
  · intro m hm
    rw [← Option.some.inj hm]
    exact from_le
  · intro m hm line t recent lt
    rw [← Option.some.inj hm] at lt
    cases lt_max_iff.mp lt with
    | inl before => exact h.reached line t (recent.earlier le) before
    | inr old => exact absurd recent.2.2 (not_le.mpr old)
  · intro b hb hstartup
    cases scan with
    | false => exact nomatch hb
    | true =>
        rw [List.mem_singleton.mp hb]
        exact ⟨rfl, rfl, rfl⟩
  · cases scan with
    | false => exact List.Pairwise.nil
    | true => exact List.pairwise_singleton _ _
  · intro hscan
    refine ⟨Option.some_ne_none _, ?_, rfl⟩
    change scan = false at hscan
    rw [hscan]
    rfl

/-- What was before the hot path is booked, or the mark of the debt is at or before it. -/
theorem Running.before (h : Running parseIso log clock store r) {line : String} {t : ℤ}
    (recent : Recent parseIso log clock line t) (lt : t < r.startedAt) :
    LineBooked parseIso store.incidents line ∨ ∃ m ∈ store.backfillFrom, m ≤ t := by
  cases hm : store.backfillFrom with
  | none => exact Or.inl (h.paid hm line t recent lt)
  | some m =>
      by_cases le : m ≤ t
      · exact Or.inr ⟨m, rfl, le⟩
      · exact Or.inl (h.reached m hm line t recent (not_le.mp le))

/-- The collector stops. -/
theorem Running.stop (h : Running parseIso log clock store r) (late : backfillReach ≤ clock)
    (booked : List XidEvent)
    (keeps : store.backfillFrom = none → ∀ b ∈ r.backfills, b.startup = false →
      ¬Owed parseIso log clock (bookXids store.incidents booked) b) :
    Stopped parseIso log clock { store with incidents := bookXids store.incidents booked } := by
  have since_le := h.since_le
  refine ⟨?_, fun m hm => (h.scanned m hm).trans since_le, ?_⟩
  · intro m hm
    change m ∈ store.backfillFrom.or store.scanUntil at hm
    cases hfrom : store.backfillFrom with
    | none =>
        rw [hfrom, Option.none_or] at hm
        exact (h.scanned m hm).trans since_le
    | some F =>
        rw [hfrom, Option.some_or] at hm
        rw [← Option.some.inj hm]
        exact ((h.from_le F hfrom).trans h.started).trans since_le
  · intro line t recent lt
    change t < (store.backfillFrom.or store.scanUntil).getD 0 at lt
    cases hfrom : store.backfillFrom with
    | some F =>
        rw [hfrom, Option.some_or, Option.getD_some] at lt
        exact (h.reached F hfrom line t recent lt).more booked
    | none =>
        rw [hfrom, Option.none_or] at lt
        by_cases before : t < r.startedAt
        · exact (h.paid hfrom line t recent before).more booked
        · have read_before : t < r.poller.xidSince := by
            cases hscan : store.scanUntil with
            | none =>
                rw [hscan, Option.getD_none] at lt
                have reach : backfillReach = 604800 := by decide
                have ge := recent.2.2
                omega
            | some m =>
                rw [hscan, Option.getD_some] at lt
                exact lt_of_lt_of_le lt (h.scanned m hscan)
          cases h.read line t recent (not_lt.mp before) read_before with
          | inl done => exact done.more booked
          | inr waits =>
              cases waits with
              | inl gap =>
                  obtain ⟨b, hb, hgap, covered⟩ := gap
                  by_contra unbooked
                  exact keeps hfrom b hb hgap
                    ⟨line, recent.1, t, recent.2.1, recent.2.2, covered, unbooked⟩
              | inr failed => exact absurd hfrom failed.1

/-- A back-fill that fails. -/
theorem Running.failed (h : Running parseIso log clock store r) {b : Backfill}
    (hb : b ∈ r.backfills)
    (keeps : b.startup = false → store.backfillFrom = none →
      ¬Owed parseIso log clock store.incidents b) :
    Running parseIso log clock store
      { r with backfills := r.backfills.erase b, failed := r.failed ++ [b] } := by
  refine
    { h with
      read := ?_
      startup := fun x hx => h.startup x (List.mem_of_mem_erase hx)
      once := h.once.sublist (List.erase_sublist)
      spawned := ?_
      given_up := ?_
      unscanned := ?_ }
  · intro line t recent ge lt
    cases h.read line t recent ge lt with
    | inl done => exact Or.inl done
    | inr waits =>
        cases waits with
        | inl gap =>
            obtain ⟨x, hx, hgap, covered⟩ := gap
            by_cases same : x = b
            · rw [same] at hgap covered
              by_cases hfrom : store.backfillFrom = none
              · left
                by_contra unbooked
                exact keeps hgap hfrom
                  ⟨line, recent.1, t, recent.2.1, recent.2.2, covered, unbooked⟩
              · exact Or.inr (Or.inr ⟨hfrom, b, List.mem_append_right _ List.mem_cons_self, hgap,
                  covered⟩)
            · exact Or.inr (Or.inl ⟨x, (List.mem_erase_of_ne same).mpr hx, hgap, covered⟩)
        | inr failed =>
            obtain ⟨hfrom, x, hx, rest⟩ := failed
            exact Or.inr (Or.inr ⟨hfrom, x, List.mem_append_left _ hx, rest⟩)
  · intro x hx hstartup
    cases List.mem_append.mp hx with
    | inl old => exact h.spawned x old hstartup
    | inr new =>
        rw [List.mem_singleton.mp new] at hstartup ⊢
        exact le_of_eq (h.startup b hb hstartup).2.1
  · intro hfrom x hx hgap
    cases List.mem_append.mp hx with
    | inl old => exact h.given_up hfrom x old hgap
    | inr new =>
        rw [List.mem_singleton.mp new] at hgap ⊢
        exact keeps hgap hfrom
  · intro hscan
    obtain ⟨_, none_there, _⟩ := h.unscanned hscan
    rw [none_there] at hb
    exact nomatch hb

/-- A back-fill that completes. -/
theorem Running.backfilled (h : Running parseIso log clock store r) {b : Backfill}
    (hb : b ∈ r.backfills) (smi : PciMap) {lines : List String}
    (shown : TrueBackfill parseIso log b lines)
    (keeps : b.startup = true → ∀ gap ∈ r.failed, gap.startup = false →
      ¬Owed parseIso log clock (bookXids store.incidents (backfillXids parseIso smi lines)) gap) :
    Running parseIso log clock
      { store with
        incidents := bookXids store.incidents (backfillXids parseIso smi lines)
        backfillFrom := if b.startup then none else store.backfillFrom }
      { r with backfills := r.backfills.erase b } := by
  have covered_booked : ∀ line t, Recent parseIso log clock line t → Backfill.Covers b t →
      LineBooked parseIso (bookXids store.incidents (backfillXids parseIso smi lines)) line := by
    intro line t recent covered
    exact lineBooked_backfill recent.2.1 _ smi (shown line recent.1 t recent.2.1 covered)
  have mark : ∀ m ∈ (if b.startup then none else store.backfillFrom), m ∈ store.backfillFrom := by
    intro m hm
    split at hm
    · exact nomatch hm
    · exact hm
  refine
    { h with
      seen := fun s hs => (h.seen s hs).more _
      from_le := fun m hm => h.from_le m (mark m hm)
      reached := fun m hm line t recent lt => (h.reached m (mark m hm) line t recent lt).more _
      paid := ?_
      read := ?_
      startup := ?_
      once := h.once.sublist List.erase_sublist
      given_up := ?_
      unscanned := ?_ }
  · intro hnone line t recent lt
    cases h.before recent lt with
    | inl done => exact done.more _
    | inr owed =>
        obtain ⟨m, hm, le⟩ := owed
        by_cases hstartup : b.startup = true
        · obtain ⟨no_stop, spawned, hfrom⟩ := h.startup b hb hstartup
          have since : b.since = m := Option.some.inj (hfrom.symm.trans hm)
          refine covered_booked line t recent ⟨by rw [since]; exact le, ?_, ?_⟩
          · intro stop hstop
            rw [no_stop] at hstop
            exact nomatch hstop
          · rw [spawned]
            exact lt
        · change (if b.startup = true then none else store.backfillFrom) = none at hnone
          rw [if_neg hstartup] at hnone
          rw [hnone] at hm
          exact nomatch hm
  · intro line t recent ge lt
    cases h.read line t recent ge lt with
    | inl done => exact Or.inl (done.more _)
    | inr waits =>
        cases waits with
        | inl gap =>
            obtain ⟨x, hx, hgap, covered⟩ := gap
            by_cases same : x = b
            · rw [same] at covered
              exact Or.inl (covered_booked line t recent covered)
            · exact Or.inr (Or.inl ⟨x, (List.mem_erase_of_ne same).mpr hx, hgap, covered⟩)
        | inr failed =>
            obtain ⟨hfrom, x, hx, hgap, covered⟩ := failed
            by_cases hstartup : b.startup = true
            · left
              by_contra unbooked
              exact keeps hstartup x hx hgap
                ⟨line, recent.1, t, recent.2.1, recent.2.2, covered, unbooked⟩
            · refine Or.inr (Or.inr ⟨?_, x, hx, hgap, covered⟩)
              show (if b.startup = true then none else store.backfillFrom) ≠ none
              rw [if_neg hstartup]
              exact hfrom
  · intro x hx hstartup
    obtain ⟨no_stop, spawned, hfrom⟩ := h.startup x (List.mem_of_mem_erase hx) hstartup
    refine ⟨no_stop, spawned, ?_⟩
    have alone := (List.Perm.pairwise_iff (fun {a c} (hac : ¬(a.startup = true ∧ c.startup = true))
      hca => hac hca.symm) (List.perm_cons_erase hb)).mp h.once
    have gap := (List.pairwise_cons.mp alone).1 x hx
    show (if b.startup = true then none else store.backfillFrom) = some x.since
    rw [if_neg fun hb => gap ⟨hb, hstartup⟩]
    exact hfrom
  · intro hnone x hx hgap
    by_cases hstartup : b.startup = true
    · exact keeps hstartup x hx hgap
    · change (if b.startup = true then none else store.backfillFrom) = none at hnone
      rw [if_neg hstartup] at hnone
      exact not_owed_more (h.given_up hnone x hx hgap) (le_refl clock) _
  · intro hscan
    obtain ⟨_, none_there, _⟩ := h.unscanned hscan
    rw [none_there] at hb
    exact nomatch hb

/-- A round that could not read the journal. -/
theorem Running.poll_unread (h : Running parseIso log clock store r) {p : XidPoll}
    (le : clock ≤ p.now) (unread : (if r.scan then p.read else none) = none) :
    ∀ r', (r.poll parseIso store p).run = some r' →
      Running parseIso log p.now (r.poll parseIso store p).store r' := by
  intro r' hr'
  have polled : r.poll parseIso store p =
      { store := store
        run := some
          { r with
            poller :=
              { r.poller with
                pciMap := if r.poller.pciMap = [] then p.smi.getD [] else r.poller.pciMap
                xidSeen := r.poller.xidSeen.dropWhile fun s => s.1 < p.now - xidDedupeSecs } } } := by
    unfold CollectorRun.poll
    rw [unread]
    unfold XidPoller.poll
    simp only [Option.toList_none, List.map_nil, List.append_nil]
    rfl
  rw [polled] at hr' ⊢
  obtain rfl := Option.some.inj hr'
  refine
    { h with
      since_le := h.since_le.trans le
      seen := fun s hs => h.seen s (mem_of_dropWhile hs)
      reached := fun m hm line t recent => h.reached m hm line t (recent.earlier le)
      paid := fun hnone line t recent => h.paid hnone line t (recent.earlier le)
      read := fun line t recent => h.read line t (recent.earlier le)
      given_up := fun hnone b hb hgap => not_owed_more (h.given_up hnone b hb hgap) le [] }

/-- A round that read it. -/
theorem Running.poll_read (h : Running parseIso log clock store r) {p : XidPoll}
    {lines : List String} (le : clock ≤ p.now)
    (shown : TruePoll parseIso log r p) (read : p.read = some lines) (scan : r.scan = true) :
    ∀ r', (r.poll parseIso store p).run = some r' →
      Running parseIso log p.now (r.poll parseIso store p).store r' := by
  intro r' hr'
  let pciMap := if r.poller.pciMap = [] then p.smi.getD [] else r.poller.pciMap
  let acc := lines.foldl (scanLine parseIso pciMap) (r.poller.xidSeen, [])
  have hscan : Scanned parseIso pciMap lines r.poller.xidSeen acc.1 acc.2 := XidOnce.scanned _ _ _
  let marks : Bool := decide (60 ≤ p.now - r.lastScanMark)
  let gaps : List Backfill := (hotWindow r.poller.xidSince p.now).2.toList.map
    fun gap => ⟨gap.1, some gap.2, false, p.now⟩
  let rows := bookXids store.incidents (acc.2.map Prod.snd)
  have polled : r.poll parseIso store p =
      { store :=
          { store with
            incidents := rows
            scanUntil := if marks then some p.now else store.scanUntil }
        run := some
          { r with
            poller :=
              { pciMap := pciMap
                xidSince := p.now
                xidSeen := acc.1.dropWhile fun s => s.1 < p.now - xidDedupeSecs }
            lastScanMark := if marks then p.now else r.lastScanMark
            backfills := r.backfills ++ gaps } } := by
    unfold CollectorRun.poll
    rw [scan, if_pos rfl, read]
    rfl
  rw [polled] at hr' ⊢
  obtain rfl := Option.some.inj hr'
  have since_le := h.since_le
  have seen_booked : ∀ s ∈ acc.1, LineBooked parseIso rows s.2 := by
    intro s hs
    rw [hscan.seen_eq] at hs
    cases List.mem_append.mp hs with
    | inl old => exact (h.seen s old).more _
    | inr new =>
        obtain ⟨x, hx, rfl⟩ := List.mem_map.mp new
        exact ⟨pciMap, x.2, (hscan.parsed x hx).2,
          (booked_bookXids store.incidents _).2 x.2 (List.mem_map_of_mem hx)⟩
  have line_booked : ∀ line t, Recent parseIso log p.now line t →
      (hotWindow r.poller.xidSince p.now).1 ≤ t → t < p.now → LineBooked parseIso rows line := by
    intro line t recent ge lt
    obtain ⟨e, parsed⟩ := parse_of_stamp recent.2.1 pciMap
    obtain ⟨s, hs, same⟩ := hscan.all line
      (shown lines read line recent.1 t recent.2.1 ge lt) (by rw [parsed]; rfl)
    rw [← same]
    exact seen_booked s hs
  have no_startup : ∀ b ∈ gaps, b.startup = false := by
    intro b hb
    obtain ⟨gap, _, rfl⟩ := List.mem_map.mp hb
    rfl
  refine
    { started := h.started.trans (since_le.trans le)
      since_le := le_refl p.now
      seen := fun s hs => seen_booked s (mem_of_dropWhile hs)
      scanned := ?_
      from_le := h.from_le
      reached := fun m hm line t recent lt =>
        (h.reached m hm line t (recent.earlier le) lt).more _
      paid := fun hnone line t recent lt => (h.paid hnone line t (recent.earlier le) lt).more _
      read := ?_
      startup := ?_
      once := ?_
      spawned := h.spawned
      given_up := fun hnone b hb hgap => not_owed_more (h.given_up hnone b hb hgap) le _
      unscanned := fun hoff => absurd hoff (by rw [scan]; exact Bool.true_eq_false_eq_False) }
  · intro m hm
    change m ∈ (if marks = true then some p.now else store.scanUntil) at hm
    split at hm
    · rw [← Option.some.inj hm]
    · exact (h.scanned m hm).trans (since_le.trans le)
  · intro line t recent ge lt
    change t < p.now at lt
    by_cases old : t < r.poller.xidSince
    · cases h.read line t (recent.earlier le) ge old with
      | inl done => exact Or.inl (done.more _)
      | inr waits =>
          cases waits with
          | inl gap =>
              obtain ⟨b, hb, rest⟩ := gap
              exact Or.inr (Or.inl ⟨b, List.mem_append_left _ hb, rest⟩)
          | inr failed => exact Or.inr (Or.inr failed)
    · by_cases within : (hotWindow r.poller.xidSince p.now).1 ≤ t
      · exact Or.inl (line_booked line t recent within lt)
      · -- what the hot read leaves out is the gap it reports
        cases hotWindow_cases r.poller.xidSince p.now with
        | inl whole =>
            rw [whole.1] at within
            omega
        | inr gap =>
            rw [gap] at within
            refine Or.inr (Or.inl ⟨⟨r.poller.xidSince - 5, some (p.now - hotLookbackSecs), false,
              p.now⟩, ?_, rfl, ?_, ?_, lt⟩)
            · apply List.mem_append_right
              show _ ∈ List.map _ (hotWindow r.poller.xidSince p.now).2.toList
              rw [gap]
              exact List.mem_singleton.mpr rfl
            · show r.poller.xidSince - 5 ≤ t
              omega
            · intro stop hstop
              rw [← Option.some.inj hstop]
              exact not_le.mp within
  · intro b hb hstartup
    cases List.mem_append.mp hb with
    | inl old => exact h.startup b old hstartup
    | inr new =>
        rw [no_startup b new] at hstartup
        exact nomatch hstartup
  · refine List.pairwise_append.mpr ⟨h.once, ?_, ?_⟩
    · refine List.pairwise_of_forall_mem_list fun a ha b _ both => ?_
      rw [no_startup a ha] at both
      exact nomatch both.1
    · intro a _ b hb both
      rw [no_startup b hb] at both
      exact nomatch both.2

/-- The step lemma: an event that gives no gap up keeps the invariant. -/
theorem Kept.step {st : XidKeeper} (h : Kept parseIso log clock st) {event : XidRunEvent}
    (isTrue : TrueStep parseIso log clock st event) (keeps : ¬GivesUp parseIso log clock st event) :
    Kept parseIso log (clockAfter clock event) (st.step parseIso event) := by
  obtain ⟨store, run⟩ := st
  cases run with
  | none =>
      have stopped : Stopped parseIso log clock store := h.stopped rfl
      cases event with
      | start now scan =>
          exact ⟨h.late.trans isTrue, fun hnone => (nomatch hnone),
            stopped.start isTrue h.late scan⟩
      | poll p =>
          have le : clock ≤ p.now := isTrue.1
          refine ⟨h.late.trans le, fun _ => ⟨?_, ?_, ?_⟩, fun _ hr => nomatch hr⟩
          · exact fun m hm => (stopped.marks m hm).trans le
          · exact fun m hm => (stopped.scanned m hm).trans le
          · exact fun line t recent => stopped.reached line t (recent.earlier le)
      | backfilled b smi lines => exact h
      | backfillFailed b => exact h
      | stop booked => exact h
  | some r =>
      have running : Running parseIso log clock store r := h.running r rfl
      cases event with
      | start now scan =>
          have le : clock ≤ now := isTrue
          refine ⟨h.late.trans le, fun hnone => (nomatch hnone), ?_⟩
          intro r' hr
          obtain rfl := Option.some.inj hr
          exact
            { running with
              since_le := running.since_le.trans le
              reached := fun m hm line t recent => running.reached m hm line t (recent.earlier le)
              paid := fun hnone line t recent => running.paid hnone line t (recent.earlier le)
              read := fun line t recent => running.read line t (recent.earlier le)
              given_up := fun hnone b hb hgap =>
                not_owed_more (running.given_up hnone b hb hgap) le [] }
      | poll p =>
          have le : clock ≤ p.now := isTrue.1
          have unread_or : (if r.scan then p.read else none) = none ∨
              (r.scan = true ∧ ∃ lines, p.read = some lines) := by
            cases hscan : r.scan with
            | false => exact Or.inl rfl
            | true =>
                cases hread : p.read with
                | none => exact Or.inl rfl
                | some lines => exact Or.inr ⟨rfl, lines, rfl⟩
          refine ⟨h.late.trans le, fun hnone => (nomatch hnone), ?_⟩
          cases unread_or with
          | inl unread => exact running.poll_unread le unread
          | inr read =>
              obtain ⟨scan, lines, hread⟩ := read
              exact running.poll_read le (isTrue.2 r rfl) hread scan
      | backfilled b smi lines =>
          show Kept parseIso log clock (if b ∈ r.backfills then _ else _)
          split
          · rename_i hb
            refine ⟨h.late, fun hnone => (nomatch hnone), ?_⟩
            intro r' hr
            obtain rfl := Option.some.inj hr
            exact running.backfilled hb smi isTrue fun hstartup gap hgap hkind howed =>
              keeps ⟨r, rfl, hb, hstartup, gap, hgap, hkind, howed⟩
          · exact h
      | backfillFailed b =>
          show Kept parseIso log clock (if b ∈ r.backfills then _ else _)
          split
          · rename_i hb
            refine ⟨h.late, fun hnone => (nomatch hnone), ?_⟩
            intro r' hr
            obtain rfl := Option.some.inj hr
            exact running.failed hb fun hgap hfrom howed =>
              keeps ⟨r, rfl, hb, hgap, hfrom, howed⟩
          · exact h
      | stop booked =>
          refine ⟨h.late, fun _ => ?_, fun _ hr => nomatch hr⟩
          exact running.stop h.late booked fun hfrom b hb hgap howed =>
            keeps ⟨r, rfl, hfrom, b, hb, hgap, howed⟩

/-- Where the invariant holds, no report is lost then or later. -/
theorem Kept.noneLost {st : XidKeeper} (h : Kept parseIso log clock st) {now : ℤ}
    (le : clock ≤ now) : NoneLost parseIso log now st := by
  intro line hline t stamped recent_now
  have recent : Recent parseIso log clock line t :=
    Recent.earlier ⟨hline, stamped, recent_now⟩ le
  have next : (st.store.backfillFrom.or st.store.scanUntil).getD 0 ≤ t →
      st.store.startsFrom now ≤ t := fun point => max_le point recent_now
  cases hrun : st.run with
  | none =>
      by_cases before : t < (st.store.backfillFrom.or st.store.scanUntil).getD 0
      · exact Or.inl ((h.stopped hrun).reached line t recent before)
      · exact Or.inr (Or.inr (Or.inr (next (not_lt.mp before))))
  | some r =>
      have running := h.running r hrun
      have marked : ∀ m ∈ st.store.backfillFrom, m ≤ t → st.store.startsFrom now ≤ t := by
        intro m hm le
        apply next
        rw [hm, Option.some_or, Option.getD_some]
        exact le
      by_cases before : t < r.startedAt
      · cases running.before recent before with
        | inl done => exact Or.inl done
        | inr owed =>
            obtain ⟨m, hm, le⟩ := owed
            exact Or.inr (Or.inr (Or.inr (marked m hm le)))
      · by_cases unread : t < r.poller.xidSince
        · cases running.read line t recent (not_lt.mp before) unread with
          | inl done => exact Or.inl done
          | inr waits =>
              cases waits with
              | inl gap =>
                  obtain ⟨b, hb, _, covered⟩ := gap
                  exact Or.inr (Or.inr (Or.inl ⟨r, rfl, b, hb, covered⟩))
              | inr failed =>
                  obtain ⟨m, hm⟩ := Option.ne_none_iff_exists'.mp failed.1
                  exact Or.inr (Or.inr (Or.inr (marked m hm
                    ((running.from_le m hm).trans (not_lt.mp before)))))
        · cases hscan : r.scan with
          | true =>
              refine Or.inr (Or.inl ⟨r, rfl, hscan, ?_⟩)
              omega
          | false =>
              obtain ⟨m, hm⟩ := Option.ne_none_iff_exists'.mp (running.unscanned hscan).1
              exact Or.inr (Or.inr (Or.inr (marked m hm
                ((running.from_le m hm).trans (not_lt.mp before)))))

theorem Kept.retried {st : XidKeeper} (h : Kept parseIso log clock st) {now : ℤ}
    (le : clock ≤ now) : Retried parseIso log now st := by
  intro r hrun b hb line hline t stamped recent_now covered
  have running := h.running r hrun
  have recent : Recent parseIso log clock line t :=
    Recent.earlier ⟨hline, stamped, recent_now⟩ le
  cases hfrom : st.store.backfillFrom with
  | some m =>
      by_cases before : t < m
      · exact Or.inl (running.reached m hfrom line t recent before)
      · right
        refine max_le ?_ recent_now
        rw [hfrom, Option.some_or, Option.getD_some]
        exact not_lt.mp before
  | none =>
      left
      cases hkind : b.startup with
      | true =>
          exact running.paid hfrom line t recent
            (lt_of_lt_of_le covered.2.2 (running.spawned b hb hkind))
      | false =>
          by_contra unbooked
          exact running.given_up hfrom b hb hkind
            ⟨line, hline, t, stamped, recent.2.2, covered, unbooked⟩

end Kept

/-! ## Runs -/

/-- A run in which time does not go back and what is read is true. -/
def TrueRun (parseIso : String → Option ℤ) (log : List String) :
    ℤ → XidKeeper → List XidRunEvent → Prop
  | _, _, [] => True
  | clock, st, event :: events => TrueStep parseIso log clock st event ∧
      TrueRun parseIso log (clockAfter clock event) (st.step parseIso event) events

/-- A run that gives no gap up. -/
def KeepsGaps (parseIso : String → Option ℤ) (log : List String) :
    ℤ → XidKeeper → List XidRunEvent → Prop
  | _, _, [] => True
  | clock, st, event :: events => ¬GivesUp parseIso log clock st event ∧
      KeepsGaps parseIso log (clockAfter clock event) (st.step parseIso event) events

/-- The run lemma. -/
theorem Kept.run {log : List String} {clock : ℤ} {st : XidKeeper}
    (h : Kept parseIso log clock st) {events rest : List XidRunEvent}
    (isTrue : TrueRun parseIso log clock st (events ++ rest))
    (keeps : KeepsGaps parseIso log clock st (events ++ rest)) :
    Kept parseIso log (events.foldl clockAfter clock)
      (events.foldl (XidKeeper.step parseIso) st) := by
  induction events generalizing clock st with
  | nil => exact h
  | cons event events ih => exact ih (h.step isTrue.1 keeps.1) isTrue.2 keeps.2

/-- In a run from an empty database that gives no gap up, at every moment each report of the last
seven days is booked or still to be read, and each back-fill that failed is retried. -/
theorem no_xid_lost (log : List String) (clock : ℤ) (late : backfillReach ≤ clock)
    (events : List XidRunEvent) (isTrue : TrueRun parseIso log clock {} events)
    (keeps : KeepsGaps parseIso log clock {} events) :
    ∀ done rest, events = done ++ rest → ∀ now, done.foldl clockAfter clock ≤ now →
      NoneLost parseIso log now (done.foldl (XidKeeper.step parseIso) {}) ∧
        Retried parseIso log now (done.foldl (XidKeeper.step parseIso) {}) := by
  intro done rest split now le
  rw [split] at isTrue keeps
  have fresh : Kept parseIso log clock {} := by
    refine ⟨late, fun _ => ⟨fun _ hm => (nomatch hm), fun _ hm => (nomatch hm), ?_⟩,
      fun _ hr => nomatch hr⟩
    intro line t recent lt
    change t < 0 at lt
    have ge := recent.2.2
    omega
  have kept := fresh.run isTrue keeps
  exact ⟨kept.noneLost le, kept.retried le⟩

/-! ## The back-fill of a gap -/

/-- A stamp that is a plain number. -/
def secondsStamp (s : String) : Option ℤ := if s = "800050" then some 800050 else none

def lostLine : String :=
  "800050 gpu-box kernel: NVRM: Xid (PCI:0000:f1:00): 79, GPU has fallen off the bus."

theorem stampOf_lostLine : stampOf secondsStamp lostLine = some 800050 := by decide

/-- The back-fill of a start, and that of the ten minutes the journal could not be read. -/
def startBackfill : Backfill := ⟨195200, none, true, 800000⟩

def gapBackfill : Backfill := ⟨800000, some 800100, false, 800700⟩

/-- A start whose back-fill completes, a read, and the next read more than ten minutes later. -/
def outage : List XidRunEvent :=
  [.start 800000 true, .backfilled startBackfill [] [],
    .poll { now := 800005, smi := none, read := some [] },
    .poll { now := 800700, smi := none, read := some [] }]

/-- In front of an event, a run is true when what it reads is. -/
theorem trueRun_outage (last : XidRunEvent)
    (isTrue : TrueStep secondsStamp [lostLine] 800700
      (outage.foldl (XidKeeper.step secondsStamp) {}) last) :
    TrueRun secondsStamp [lostLine] 800000 {} (outage ++ [last]) := by
  have stamp : ∀ line ∈ [lostLine], ∀ t, stampOf secondsStamp line = some t → t = 800050 := by
    intro line hline t stamped
    rw [List.mem_singleton.mp hline, stampOf_lostLine] at stamped
    exact (Option.some.inj stamped).symm
  refine ⟨le_refl _, ?_, ⟨by decide, ?_⟩, ⟨by decide, ?_⟩, isTrue, trivial⟩
  · intro line hline t stamped covered
    rw [stamp line hline t stamped] at covered
    exact absurd covered.2.2 (by decide)
  · intro r hr lines _ line hline t stamped _ lt
    rw [stamp line hline t stamped] at lt
    exact absurd lt (by decide)
  · intro r hr lines _ line hline t stamped ge _
    obtain rfl := Option.some.inj hr
    rw [stamp line hline t stamped] at ge
    exact absurd ge (by decide)

theorem a_gap_is_backfilled :
    let events := outage ++ [.backfilled gapBackfill [] [lostLine]]
    NoneLost secondsStamp [lostLine] 800700
        (events.foldl (XidKeeper.step secondsStamp) {}) ∧
      Retried secondsStamp [lostLine] 800700
        (events.foldl (XidKeeper.step secondsStamp) {}) := by
  intro events
  have isTrue : TrueRun secondsStamp [lostLine] 800000 {} events := by
    apply trueRun_outage
    intro line hline t _ _
    exact hline
  have keeps : KeepsGaps secondsStamp [lostLine] 800000 {} events := by
    refine ⟨id, ?_, id, id, ?_, trivial⟩
    · rintro ⟨r, hr, _, _, gap, hgap, _⟩
      obtain rfl := Option.some.inj hr
      exact nomatch hgap
    · rintro ⟨r, _, _, hstartup, _⟩
      exact nomatch hstartup
  exact no_xid_lost [lostLine] 800000 (by decide) events isTrue keeps events []
    (List.append_nil events).symm 800700 (le_refl _)

/-- The back-fill of the gap fails, and says that it will be retried on the next start; that one
reads from the last hot read on. -/
theorem a_failed_gap_is_lost :
    let events := outage ++ [.backfillFailed gapBackfill]
    TrueRun secondsStamp [lostLine] 800000 {} events ∧
      ¬NoneLost secondsStamp [lostLine] 800700
        (events.foldl (XidKeeper.step secondsStamp) {}) ∧
      ¬Retried secondsStamp [lostLine] 800700
        (events.foldl (XidKeeper.step secondsStamp) {}) := by
  intro events
  have next : ¬(events.foldl (XidKeeper.step secondsStamp) {}).store.startsFrom 800700 ≤
      800050 := by decide
  have unbooked : ¬LineBooked secondsStamp
      (events.foldl (XidKeeper.step secondsStamp) {}).store.incidents lostLine := by
    rintro ⟨_, e, _, booked⟩
    exact nomatch booked
  refine ⟨trueRun_outage _ trivial, ?_, ?_⟩
  · intro none_lost
    have h := none_lost lostLine (List.mem_singleton.mpr rfl) 800050 stampOf_lostLine (by decide)
    obtain booked | ⟨r, hr, _, hot⟩ | ⟨r, hr, b, hb, _⟩ | start := h
    · exact unbooked booked
    · obtain rfl := Option.some.inj hr
      exact absurd hot (by decide)
    · obtain rfl := Option.some.inj hr
      exact nomatch hb
    · exact next start
  · intro retried
    have h := retried _ rfl gapBackfill (List.mem_singleton.mpr rfl) lostLine
      (List.mem_singleton.mpr rfl) 800050 stampOf_lostLine (by decide)
      ⟨by decide, fun stop hstop => by rw [← Option.some.inj hstop]; decide, by decide⟩
    cases h with
    | inl booked => exact unbooked booked
    | inr start => exact next start

end Lss.Analysis.XidMarkers
