import Mathlib.Data.List.Nodup
import Lss.Model.XidScan

/-!
# Every fault report once

A report stamped since the start is handed to the rules by the first read that works after it,
or it lies in a gap that was reported; and it is handed once, because the lines that were handed
are remembered for longer than the hot path looks back. Booking the incidents of lines again
changes nothing exactly when the addresses of the GPUs resolve as they did before.
-/

set_option autoImplicit false

namespace Lss.Analysis.XidOnce

open Lss.Model

variable {parseIso : String → Option ℤ}

/-! ## The lines -/

/-- The stamp of a line that is a report. -/
def stampOf (parseIso : String → Option ℤ) (line : String) : Option ℤ :=
  (parseXidText parseIso line).map XidEvent.ts

/-- The stamp does not depend on the addresses of the GPUs. -/
theorem stampOf_eq (pciMap : PciMap) (line : String) :
    (parseXidLine parseIso pciMap line).map XidEvent.ts = stampOf parseIso line := by
  unfold parseXidLine stampOf
  rw [Option.map_map]
  rfl

theorem stampOf_of_parse {pciMap : PciMap} {line : String} {e : XidEvent}
    (h : parseXidLine parseIso pciMap line = some e) : stampOf parseIso line = some e.ts := by
  rw [← stampOf_eq pciMap, h]
  rfl

/-- What one read does: reports that were not seen are remembered and handed on, each once. -/
structure Scanned (parseIso : String → Option ℤ) (pciMap : PciMap) (lines : List String)
    (seen seen' : List (ℤ × String)) (xids : List (String × XidEvent)) : Prop where
  seen_eq : seen' = seen ++ xids.map fun x => (x.2.ts, x.1)
  parsed : ∀ x ∈ xids, x.1 ∈ lines ∧ parseXidLine parseIso pciMap x.1 = some x.2
  fresh : ∀ x ∈ xids, ∀ s ∈ seen, s.2 ≠ x.1
  once : (xids.map Prod.fst).Nodup
  all : ∀ line ∈ lines, (parseXidLine parseIso pciMap line).isSome → ∃ s ∈ seen', s.2 = line

theorem scanned (pciMap : PciMap) (seen : List (ℤ × String)) (lines : List String) :
    Scanned parseIso pciMap lines seen (lines.foldl (scanLine parseIso pciMap) (seen, [])).1
      (lines.foldl (scanLine parseIso pciMap) (seen, [])).2 := by
  induction lines using List.reverseRecOn with
  | nil =>
      refine ⟨(List.append_nil _).symm, ?_, ?_, List.nodup_nil, ?_⟩
      · intro x hx
        cases hx
      · intro x hx
        cases hx
      · intro line hline
        cases hline
  | append_singleton lines line ih =>
      rw [List.foldl_append, List.foldl_cons, List.foldl_nil]
      generalize lines.foldl (scanLine parseIso pciMap) (seen, []) = acc at ih
      have hparsed : ∀ x ∈ acc.2, x.1 ∈ lines ++ [line] ∧
          parseXidLine parseIso pciMap x.1 = some x.2 := by
        intro x hx
        exact ⟨List.mem_append_left _ (ih.parsed x hx).1, (ih.parsed x hx).2⟩
      unfold scanLine
      cases hline : parseXidLine parseIso pciMap line with
      | none =>
          refine ⟨ih.seen_eq, hparsed, ih.fresh, ih.once, ?_⟩
          intro l hl hsome
          obtain hold | hnew := List.mem_append.1 hl
          · exact ih.all l hold hsome
          · rw [List.mem_singleton.1 hnew, hline] at hsome
            cases hsome
      | some e =>
          dsimp only
          split
          · rename_i hseen
            obtain ⟨s, hs, heq⟩ := List.any_eq_true.1 hseen
            refine ⟨ih.seen_eq, hparsed, ih.fresh, ih.once, ?_⟩
            intro l hl hsome
            obtain hold | hnew := List.mem_append.1 hl
            · exact ih.all l hold hsome
            · rw [List.mem_singleton.1 hnew]
              exact ⟨s, hs, of_decide_eq_true heq⟩
          · rename_i hseen
            have hnot : ∀ s ∈ acc.1, s.2 ≠ line := by
              intro s hs heq
              exact hseen (List.any_eq_true.2 ⟨s, hs, by simpa using heq⟩)
            refine ⟨?_, ?_, ?_, ?_, ?_⟩
            · rw [ih.seen_eq, List.append_assoc, List.map_append]
              rfl
            · intro x hx
              obtain hold | hnew := List.mem_append.1 hx
              · exact hparsed x hold
              · rw [List.mem_singleton.1 hnew]
                exact ⟨List.mem_append_right _ List.mem_cons_self, hline⟩
            · intro x hx s hs
              obtain hold | hnew := List.mem_append.1 hx
              · exact ih.fresh x hold s hs
              · rw [List.mem_singleton.1 hnew]
                apply hnot s
                rw [ih.seen_eq]
                exact List.mem_append_left _ hs
            · rw [List.map_append, List.map_singleton]
              apply List.Nodup.append ih.once (List.nodup_singleton _)
              intro l hl hsame
              obtain ⟨x, hx, rfl⟩ := List.mem_map.1 hl
              apply hnot (x.2.ts, x.1)
              · rw [ih.seen_eq]
                exact List.mem_append_right _ (List.mem_map.2 ⟨x, hx, rfl⟩)
              · exact List.mem_singleton.1 hsame
            · intro l hl hsome
              obtain hold | hnew := List.mem_append.1 hl
              · obtain ⟨s, hs, heq⟩ := ih.all l hold hsome
                exact ⟨s, List.mem_append_left _ hs, heq⟩
              · exact ⟨(e.ts, line), List.mem_append_right _ List.mem_cons_self,
                  (List.mem_singleton.1 hnew).symm⟩

/-! ## A truthful journal -/

/-- A read from a time on shows lines of that time and later, and every line whose stamp has
passed. -/
structure TrueRead (parseIso : String → Option ℤ) (log : List String) (since now : ℤ)
    (lines : List String) : Prop where
  sinceThen : ∀ line ∈ lines, ∀ t, stampOf parseIso line = some t → since ≤ t
  shows : ∀ line ∈ log, ∀ t, stampOf parseIso line = some t → since ≤ t → t ≤ now → line ∈ lines

/-- A poll not before the clock, whose read is truthful when it works. -/
def TrueEvent (parseIso : String → Option ℤ) (log : List String) (clock : ℤ)
    (st : XidScanState) : XidScanEvent → Prop
  | .poll p => clock ≤ p.now ∧ ∀ lines, p.read = some lines →
      TrueRead parseIso log (hotWindow st.poller.xidSince p.now).1 p.now lines
  | .backfill _ _ => True

/-- The time after an event. -/
def clockAfter (clock : ℤ) : XidScanEvent → ℤ
  | .poll p => p.now
  | .backfill _ _ => clock

/-- The time of the last read that worked. -/
def readAfter (last : Option ℤ) : XidScanEvent → Option ℤ
  | .poll p => if p.read.isSome then some p.now else last
  | .backfill _ _ => last

def TrueRun (parseIso : String → Option ℤ) (log : List String) :
    ℤ → XidScanState → List XidScanEvent → Prop
  | _, _, [] => True
  | clock, st, event :: events => TrueEvent parseIso log clock st event ∧
      TrueRun parseIso log (clockAfter clock event) (st.step parseIso event) events

/-- A line was handed to the rules, or its time lies in a gap that was reported. -/
def Reported (st : XidScanState) (line : String) (t : ℤ) : Prop :=
  line ∈ st.handed.map Prod.fst ∨ ∃ gap ∈ st.gaps, gap.1 ≤ t ∧ t < gap.2

/-- What holds between events: the poller goes on from the last read, the lines handed are
remembered until they are too old to be read again, and every line up to the last read is
reported. -/
structure Good (parseIso : String → Option ℤ) (log : List String) (start clock : ℤ)
    (last : Option ℤ) (st : XidScanState) : Prop where
  since_eq : st.poller.xidSince = last.getD start
  since_le : st.poller.xidSince ≤ clock
  stamped : ∀ x ∈ st.handed, stampOf parseIso x.1 = some x.2.ts
  kept : ∀ x ∈ st.handed, (x.2.ts, x.1) ∈ st.poller.xidSeen ∨ x.2.ts < clock - xidDedupeSecs
  seen_handed : ∀ s ∈ st.poller.xidSeen, s.2 ∈ st.handed.map Prod.fst
  once : (st.handed.map Prod.fst).Nodup
  covered : ∀ line ∈ log, ∀ t until_, stampOf parseIso line = some t → start ≤ t →
    last = some until_ → t ≤ until_ → Reported st line t

theorem hotWindow_cases (lastOk now : ℤ) :
    (hotWindow lastOk now = (lastOk - 5, none) ∧ now - hotLookbackSecs ≤ lastOk - 5) ∨
      hotWindow lastOk now = (now - hotLookbackSecs, some (lastOk - 5, now - hotLookbackSecs)) := by
  unfold hotWindow
  dsimp only
  split
  · rename_i h
    exact Or.inl ⟨rfl, h⟩
  · exact Or.inr rfl

/-- The hot path never looks back further than ten minutes. -/
theorem hotWindow_ge (lastOk now : ℤ) : now - hotLookbackSecs ≤ (hotWindow lastOk now).1 := by
  obtain ⟨h, hle⟩ | h := hotWindow_cases lastOk now
  · rw [h]
    exact hle
  · rw [h]

/-- What the pruning takes out is old. -/
theorem mem_dropWhile_or {α : Type} (p : α → Bool) (xs : List α) {x : α} (h : x ∈ xs) :
    x ∈ xs.dropWhile p ∨ p x = true := by
  induction xs with
  | nil => cases h
  | cons y xs ih =>
      rw [List.dropWhile_cons]
      split
      · rename_i hy
        obtain heq | hmem := List.mem_cons.1 h
        · rw [heq]
          exact Or.inr hy
        · exact ih hmem
      · exact Or.inl h

theorem mem_of_dropWhile {α : Type} {p : α → Bool} {xs : List α} {x : α}
    (h : x ∈ xs.dropWhile p) : x ∈ xs := (List.dropWhile_sublist p).mem h

section Step

variable {log : List String} {start clock : ℤ} {last : Option ℤ} {st : XidScanState}

theorem Reported.mono {st st' : XidScanState} {line : String} {t : ℤ}
    (hhanded : ∀ l ∈ st.handed.map Prod.fst, l ∈ st'.handed.map Prod.fst)
    (hgaps : ∀ gap ∈ st.gaps, gap ∈ st'.gaps) (h : Reported st line t) :
    Reported st' line t := by
  obtain h | ⟨gap, hgap, hin⟩ := h
  · exact Or.inl (hhanded line h)
  · exact Or.inr ⟨gap, hgaps gap hgap, hin⟩

/-- A poll that could not read the journal. -/
theorem good_unread (h : Good parseIso log start clock last st) {p : XidPoll}
    (hclock : clock ≤ p.now) (hread : p.read = none) :
    Good parseIso log start p.now last (st.step parseIso (.poll p)) := by
  have hstep : st.step parseIso (.poll p) =
      { poller := (st.poller.poll parseIso p).1
        incidents := bookXids st.incidents ((st.poller.poll parseIso p).2.xids.map Prod.snd)
        handed := st.handed ++ (st.poller.poll parseIso p).2.xids
        gaps := st.gaps ++ (st.poller.poll parseIso p).2.journalGap.toList } := rfl
  have hpoll : (st.poller.poll parseIso p).2 = {} ∧
      (st.poller.poll parseIso p).1.xidSince = st.poller.xidSince ∧
      (st.poller.poll parseIso p).1.xidSeen =
        st.poller.xidSeen.dropWhile fun s => s.1 < p.now - xidDedupeSecs := by
    unfold XidPoller.poll
    rw [hread]
    exact ⟨rfl, rfl, rfl⟩
  obtain ⟨hresult, hsince, hseen⟩ := hpoll
  have hhanded : (st.step parseIso (.poll p)).handed = st.handed := by
    rw [hstep, hresult]
    exact List.append_nil _
  have hgaps : (st.step parseIso (.poll p)).gaps = st.gaps := by
    rw [hstep, hresult]
    exact List.append_nil _
  have hpoller : (st.step parseIso (.poll p)).poller = (st.poller.poll parseIso p).1 := rfl
  refine ⟨?_, ?_, ?_, ?_, ?_, ?_, ?_⟩
  · rw [hpoller, hsince]
    exact h.since_eq
  · rw [hpoller, hsince]
    exact h.since_le.trans hclock
  · rw [hhanded]
    exact h.stamped
  · rw [hhanded, hpoller, hseen]
    intro x hx
    obtain hin | hold := h.kept x hx
    · obtain hkept | hpruned := mem_dropWhile_or _ _ hin
      · exact Or.inl hkept
      · exact Or.inr (of_decide_eq_true hpruned)
    · right
      omega
  · rw [hhanded, hpoller, hseen]
    intro s hs
    exact h.seen_handed s (mem_of_dropWhile hs)
  · rw [hhanded]
    exact h.once
  · intro line hline t until_ hstamp hstart hlast hle
    refine Reported.mono (?_ : ∀ l ∈ st.handed.map Prod.fst, _) ?_ ?_
    · rw [hhanded]
      exact fun l hl => hl
    · rw [hgaps]
      exact fun gap hgap => hgap
    · exact h.covered line hline t until_ hstamp hstart hlast hle

/-- A poll that read the journal. -/
theorem good_read (h : Good parseIso log start clock last st) {p : XidPoll} {lines : List String}
    (hclock : clock ≤ p.now) (hread : p.read = some lines)
    (htrue : TrueRead parseIso log (hotWindow st.poller.xidSince p.now).1 p.now lines) :
    Good parseIso log start p.now (some p.now) (st.step parseIso (.poll p)) := by
  let pciMap := if st.poller.pciMap = [] then p.smi.getD [] else st.poller.pciMap
  let acc := lines.foldl (scanLine parseIso pciMap) (st.poller.xidSeen, [])
  have hscan : Scanned parseIso pciMap lines st.poller.xidSeen acc.1 acc.2 := scanned _ _ _
  have hpoll : st.poller.poll parseIso p =
      ({ pciMap := pciMap
         xidSince := p.now
         xidSeen := acc.1.dropWhile fun s => s.1 < p.now - xidDedupeSecs },
        { xids := acc.2, journalGap := (hotWindow st.poller.xidSince p.now).2 }) := by
    unfold XidPoller.poll
    rw [hread]
  have hhanded : (st.step parseIso (.poll p)).handed = st.handed ++ acc.2 := by
    show st.handed ++ (st.poller.poll parseIso p).2.xids = _
    rw [hpoll]
  have hgaps : (st.step parseIso (.poll p)).gaps =
      st.gaps ++ (hotWindow st.poller.xidSince p.now).2.toList := by
    show st.gaps ++ (st.poller.poll parseIso p).2.journalGap.toList = _
    rw [hpoll]
  have hpoller : (st.step parseIso (.poll p)).poller =
      { pciMap := pciMap
        xidSince := p.now
        xidSeen := acc.1.dropWhile fun s => s.1 < p.now - xidDedupeSecs } := by
    show (st.poller.poll parseIso p).1 = _
    rw [hpoll]
  have hseen : ∀ s ∈ acc.1, s.2 ∈ (st.handed ++ acc.2).map Prod.fst := by
    intro s hs
    rw [hscan.seen_eq] at hs
    rw [List.map_append]
    obtain hold | hnew := List.mem_append.1 hs
    · exact List.mem_append_left _ (h.seen_handed s hold)
    · obtain ⟨x, hx, rfl⟩ := List.mem_map.1 hnew
      exact List.mem_append_right _ (List.mem_map.2 ⟨x, hx, rfl⟩)
  have hstamped : ∀ x ∈ acc.2, stampOf parseIso x.1 = some x.2.ts := by
    intro x hx
    exact stampOf_of_parse (hscan.parsed x hx).2
  refine ⟨?_, ?_, ?_, ?_, ?_, ?_, ?_⟩
  · rw [hpoller]
    rfl
  · rw [hpoller]
  · rw [hhanded]
    intro x hx
    obtain hold | hnew := List.mem_append.1 hx
    · exact h.stamped x hold
    · exact hstamped x hnew
  · rw [hhanded, hpoller]
    intro x hx
    have hin : (x.2.ts, x.1) ∈ acc.1 ∨ x.2.ts < p.now - xidDedupeSecs := by
      rw [hscan.seen_eq]
      obtain hold | hnew := List.mem_append.1 hx
      · obtain hkept | hpast := h.kept x hold
        · exact Or.inl (List.mem_append_left _ hkept)
        · right
          omega
      · exact Or.inl (List.mem_append_right _ (List.mem_map.2 ⟨x, hnew, rfl⟩))
    obtain hin | hpast := hin
    · obtain hkept | hpruned := mem_dropWhile_or (fun s => s.1 < p.now - xidDedupeSecs) _ hin
      · exact Or.inl hkept
      · exact Or.inr (of_decide_eq_true hpruned)
    · exact Or.inr hpast
  · rw [hhanded, hpoller]
    intro s hs
    exact hseen s (mem_of_dropWhile hs)
  · rw [hhanded, List.map_append]
    apply List.Nodup.append h.once hscan.once
    -- a line handed before is remembered, or older than anything the window shows
    intro line hbefore hnow
    obtain ⟨x, hx, rfl⟩ := List.mem_map.1 hbefore
    obtain ⟨y, hy, heq⟩ := List.mem_map.1 hnow
    have hts : stampOf parseIso y.1 = some x.2.ts := by
      rw [heq]
      exact h.stamped x hx
    obtain hkept | hpast := h.kept x hx
    · exact hscan.fresh y hy _ hkept heq.symm
    · have hwindow := htrue.sinceThen y.1 (hscan.parsed y hy).1 x.2.ts hts
      have hback := hotWindow_ge st.poller.xidSince p.now
      have hdedupe : xidDedupeSecs = 900 := rfl
      have hlookback : hotLookbackSecs = 600 := rfl
      omega
  · intro line hline t until_ hstamp hstart hlast hle
    have huntil : until_ = p.now := (Option.some.inj hlast).symm
    by_cases hold : ∃ ok, last = some ok ∧ t ≤ ok
    · obtain ⟨ok, hok, htok⟩ := hold
      refine Reported.mono ?_ ?_ (h.covered line hline t ok hstamp hstart hok htok)
      · rw [hhanded, List.map_append]
        exact fun l hl => List.mem_append_left _ hl
      · rw [hgaps]
        exact fun gap hgap => List.mem_append_left _ hgap
    · have hafter : st.poller.xidSince ≤ t := by
        rw [h.since_eq]
        cases hcase : last with
        | none => exact hstart
        | some ok =>
            by_contra hlt
            apply hold
            refine ⟨ok, hcase, ?_⟩
            rw [Option.getD_some] at hlt
            omega
      have hshown : (hotWindow st.poller.xidSince p.now).1 ≤ t →
          Reported (st.step parseIso (.poll p)) line t := by
        intro hsince
        have hmem := htrue.shows line hline t hstamp hsince (huntil ▸ hle)
        have hsome : (parseXidLine parseIso pciMap line).isSome := by
          have hparse : (parseXidLine parseIso pciMap line).map XidEvent.ts =
              stampOf parseIso line := stampOf_eq pciMap line
          rw [hstamp] at hparse
          cases hcase : parseXidLine parseIso pciMap line with
          | none => rw [hcase] at hparse; cases hparse
          | some e => rfl
        obtain ⟨s, hs, rfl⟩ := hscan.all line hmem hsome
        left
        rw [hhanded]
        exact hseen s hs
      obtain ⟨hwindow, _⟩ | hwindow := hotWindow_cases st.poller.xidSince p.now
      · apply hshown
        rw [hwindow]
        dsimp only
        omega
      · by_cases hfloor : p.now - hotLookbackSecs ≤ t
        · apply hshown
          rw [hwindow]
          exact hfloor
        · right
          refine ⟨(st.poller.xidSince - 5, p.now - hotLookbackSecs), ?_, ?_⟩
          · rw [hgaps, hwindow]
            exact List.mem_append_right _ List.mem_cons_self
          · dsimp only
            omega

theorem good_step (h : Good parseIso log start clock last st) {event : XidScanEvent}
    (htrue : TrueEvent parseIso log clock st event) :
    Good parseIso log start (clockAfter clock event) (readAfter last event)
      (st.step parseIso event) := by
  cases event with
  | poll p =>
      obtain ⟨hclock, hreads⟩ := htrue
      cases hread : p.read with
      | none =>
          have hlast : readAfter last (.poll p) = last := by simp [readAfter, hread]
          rw [hlast]
          exact good_unread h hclock hread
      | some lines =>
          have hlast : readAfter last (.poll p) = some p.now := by simp [readAfter, hread]
          rw [hlast]
          exact good_read h hclock hread (hreads lines hread)
  | backfill smi lines =>
      exact ⟨h.since_eq, h.since_le, h.stamped, h.kept, h.seen_handed, h.once, h.covered⟩

theorem good_run (h : Good parseIso log start clock last st) {events : List XidScanEvent}
    (htrue : TrueRun parseIso log clock st events) :
    Good parseIso log start (events.foldl clockAfter clock) (events.foldl readAfter last)
      (events.foldl (XidScanState.step parseIso) st) := by
  induction events generalizing clock last st with
  | nil => exact h
  | cons event events ih => exact ih (good_step h htrue.1) htrue.2

end Step

/-! ## Booking again -/

/-- The incident of a report is in the table. -/
def Booked (rows : List IncidentRow) (e : XidEvent) : Prop :=
  eventBooked rows .xid e.ts "" (some (xidKey e.gpuLabel e.xid e.ts)) = true

theorem bookOp_xidOp (rows : List IncidentRow) (e : XidEvent) :
    bookOp rows (xidOp e) = rows ↔ Booked rows e := by
  have hsame : ∀ detail, eventBooked rows .xid e.ts detail
      (some (xidKey e.gpuLabel e.xid e.ts)) = true ↔ Booked rows e := fun _ => Iff.rfl
  unfold xidOp bookOp eventIncident
  dsimp only
  split
  · rename_i h
    exact iff_of_true rfl ((hsame _).1 h)
  · rename_i h
    apply iff_of_false
    · intro heq
      have hlength := congrArg List.length heq
      rw [List.length_append, List.length_singleton] at hlength
      omega
    · exact fun hbooked => h ((hsame _).2 hbooked)

theorem bookXids_booked {rows : List IncidentRow} {xids : List XidEvent}
    (h : ∀ e ∈ xids, Booked rows e) : bookXids rows xids = rows := by
  unfold bookXids
  induction xids with
  | nil => rfl
  | cons e xids ih =>
      rw [List.map_cons, List.foldl_cons, (bookOp_xidOp rows e).2 (h e List.mem_cons_self)]
      exact ih fun x hx => h x (List.mem_cons_of_mem _ hx)

/-- The lines the back-fills of a run were given. -/
def backfilledLines (events : List XidScanEvent) : List String :=
  events.flatMap fun event =>
    match event with
    | .poll _ => []
    | .backfill _ lines => lines.take backfillMaxEvents

/-- Reading booked lines again changes nothing exactly when each of their reports is booked
under the label it has now. -/
theorem backfill_again_iff (rows : List IncidentRow) (smi : PciMap) (booked : List String) :
    (∀ lines, (∀ line ∈ lines, line ∈ booked) →
      bookXids rows (backfillXids parseIso smi lines) = rows) ↔
    ∀ line ∈ booked, ∀ e, parseXidLine parseIso smi line = some e → Booked rows e := by
  constructor
  · intro h line hline e hparse
    have hone := h [line] fun l hl => by
      rw [List.mem_singleton.1 hl]
      exact hline
    have hxids : backfillXids parseIso smi [line] = [e] := by
      unfold backfillXids
      rw [List.take_of_length_le (show 1 ≤ backfillMaxEvents by decide), List.filterMap_cons, hparse, List.filterMap_nil]
    rw [hxids] at hone
    exact (bookOp_xidOp rows e).1 hone
  · intro h lines hlines
    apply bookXids_booked
    intro e he
    obtain ⟨line, hline, hparse⟩ := List.mem_filterMap.1 he
    exact h line (hlines line (List.mem_of_mem_take hline)) e hparse

/-- Over every run with a truthful journal no report is lost or handed on twice, and a back-fill
that reads booked lines again books nothing exactly when the addresses it read give each of them
a label under which it is booked. -/
theorem xids_once_iff (parseIso : String → Option ℤ) (log : List String) (start : ℤ)
    (rows : List IncidentRow) (events : List XidScanEvent) (smi : PciMap)
    (htrue : TrueRun parseIso log start
      { poller := { xidSince := start }, incidents := rows } events) :
    let st := events.foldl (XidScanState.step parseIso)
      { poller := { xidSince := start }, incidents := rows }
    let booked := st.handed.map Prod.fst ++ backfilledLines events
    ((∀ line ∈ log, ∀ t until_, stampOf parseIso line = some t → start ≤ t →
        events.foldl readAfter none = some until_ → t ≤ until_ → Reported st line t) ∧
      (st.handed.map Prod.fst).Nodup ∧
      ∀ lines, (∀ line ∈ lines, line ∈ booked) →
        bookXids st.incidents (backfillXids parseIso smi lines) = st.incidents) ↔
    ∀ line ∈ booked, ∀ e, parseXidLine parseIso smi line = some e → Booked st.incidents e := by
  intro st booked
  have hstart : Good parseIso log start start none
      { poller := { xidSince := start }, incidents := rows } := by
    refine ⟨rfl, le_refl start, ?_, ?_, ?_, List.nodup_nil, ?_⟩
    · intro x hx
      cases hx
    · intro x hx
      cases hx
    · intro s hs
      cases hs
    · intro line _ t until_ _ _ hlast
      cases hlast
  have hgood := good_run hstart htrue
  have hagain := @backfill_again_iff parseIso st.incidents smi booked
  constructor
  · intro h
    exact hagain.1 h.2.2
  · intro h
    exact ⟨hgood.covered, hgood.once, hagain.2 h⟩

/-! ## A GPU that fell off the bus -/

/-- A stamp that is a plain number. -/
def plainStamp (s : String) : Option ℤ := if s = "100" then some 100 else none

def fallenLine : String :=
  "100 gpu-box kernel: NVRM: Xid (PCI:0000:f1:00): 79, GPU has fallen off the bus."

theorem stampOf_fallenLine : stampOf plainStamp fallenLine = some 100 := by decide

/-- The poll that reads the line, with the addresses known. -/
def fallenPoll : XidScanEvent :=
  .poll { now := 105, smi := some [((0, 241, 0), 3)], read := some [fallenLine] }

theorem trueRun_fallen :
    TrueRun plainStamp [fallenLine] 95 { poller := { xidSince := 95 } } [fallenPoll] := by
  refine ⟨⟨by decide, ?_⟩, trivial⟩
  intro lines hlines
  cases hlines
  constructor
  · intro line hline t hstamp
    rw [List.mem_singleton.1 hline, stampOf_fallenLine] at hstamp
    cases hstamp
    decide
  · intro line hline t _ _ _
    exact hline

/-- With the addresses read again the line books nothing new. -/
theorem fallen_gpu_booked_once :
    let st := [fallenPoll].foldl (XidScanState.step plainStamp) { poller := { xidSince := 95 } }
    bookXids st.incidents (backfillXids plainStamp [((0, 241, 0), 3)] [fallenLine]) =
      st.incidents := by
  have honce := (xids_once_iff plainStamp [fallenLine] 95 [] [fallenPoll] [((0, 241, 0), 3)]
    trueRun_fallen).2
  refine (honce ?_).2.2 [fallenLine] ?_
  · intro line hline e hparse
    have hline : line = fallenLine := by
      have hbooked : ([fallenPoll].foldl (XidScanState.step plainStamp)
          { poller := { xidSince := 95 } }).handed.map Prod.fst ++ backfilledLines [fallenPoll] =
            [fallenLine] := by
        decide
      rw [hbooked] at hline
      exact List.mem_singleton.1 hline
    rw [hline] at hparse
    have hevent : parseXidLine plainStamp [((0, 241, 0), 3)] fallenLine =
        some ⟨100, "0000:f1:00", 79, some 3, "GPU has fallen off the bus."⟩ := by
      decide
    rw [hevent] at hparse
    cases hparse
    unfold Booked
    decide
  · intro line hline
    rw [List.mem_singleton.1 hline]
    decide

/-- Where the GPU tool does not answer the back-fill, the line is booked a second time. -/
theorem fallen_gpu_booked_twice :
    let st := [fallenPoll].foldl (XidScanState.step plainStamp) { poller := { xidSince := 95 } }
    TrueRun plainStamp [fallenLine] 95 { poller := { xidSince := 95 } } [fallenPoll] ∧
      fallenLine ∈ st.handed.map Prod.fst ∧
      bookXids st.incidents (backfillXids plainStamp [] [fallenLine]) ≠ st.incidents := by
  refine ⟨trueRun_fallen, ?_, ?_⟩
  · decide
  · decide

end Lss.Analysis.XidOnce
