import Lss.Analysis.LogMerge

/-!
# Every record of the gateway's log once

The collector reads the log of the gateway again and again, each time after the newest stamp it
has seen. However the reads and the writing of the log interleave, whatever order a read shows
the lines in and however often it shows old ones, the stretches add up to the whole log: only the
users need care, since a stretch keeps sixty-four of them and a long log has more.
-/

set_option autoImplicit false

namespace Lss.Analysis.GatePolls

open Lss.Model Lss.Library.Entries Lss.Analysis.LogMerge

/-! ## Stamps -/

/-- The stamp of a line that has one. -/
def stamp (line : String) : Option String := (splitDockerTs line).map Prod.fst

/-- A line that a poll from the cursor counts. -/
def Fresh (cursor : Option String) (line : String) : Prop :=
  ∃ ts, stamp line = some ts ∧ cursor.all fun c => c < ts

instance (cursor : Option String) (line : String) : Decidable (Fresh cursor line) :=
  match h : stamp line with
  | none => isFalse fun ⟨_, hs, _⟩ => by rw [h] at hs; cases hs
  | some ts => decidable_of_iff (cursor.all fun c => c < ts)
      ⟨fun hc => ⟨ts, h, hc⟩, fun ⟨t, hs, hc⟩ => by rw [h] at hs; cases hs; exact hc⟩

theorem fresh_none {line : String} : Fresh none line ↔ (stamp line).isSome := by
  unfold Fresh
  cases stamp line with
  | none => simp
  | some ts => simp

theorem fresh_some {c ts line : String} (h : stamp line = some ts) :
    Fresh (some c) line ↔ c < ts := by
  unfold Fresh
  rw [h]
  simp

/-- The newest stamp of some lines. -/
structure Newest (lines : List String) (n : Option String) : Prop where
  none_newer : ∀ line ∈ lines, ¬Fresh n line
  seen : n = none ∨ ∃ line ∈ lines, stamp line = n

theorem Newest.unique {lines : List String} {m n : Option String} (hm : Newest lines m)
    (hn : Newest lines n) : m = n := by
  -- a newest stamp and no stamp at all do not go together
  have absurd_none : ∀ {k : String}, Newest lines none → Newest lines (some k) → False := by
    intro k hnone hsome
    rcases hsome.seen with h | ⟨line, hl, hk⟩
    · cases h
    · exact hnone.none_newer line hl (fresh_none.mpr (by rw [hk]; rfl))
  cases m with
  | none =>
      cases n with
      | none => rfl
      | some n => exact (absurd_none hm hn).elim
  | some m =>
      cases n with
      | none => exact (absurd_none hn hm).elim
      | some n =>
          obtain ⟨l, hl, hlm⟩ := hm.seen.resolve_left (by simp)
          obtain ⟨l', hl', hln⟩ := hn.seen.resolve_left (by simp)
          have h₁ : ¬n < m := fun h => hn.none_newer l hl ((fresh_some hlm).mpr h)
          have h₂ : ¬m < n := fun h => hm.none_newer l' hl' ((fresh_some hln).mpr h)
          exact congrArg some (String.le_antisymm h₁ h₂)

/-! ## One poll -/

section Polls

variable (fromJson : String → Option AuditRecord)

/-- The record of a line, when it is one. -/
def recordOf (line : String) : Option AuditRecord :=
  (splitDockerTs line).bind fun s => parseAudit fromJson s.2

def recordsOf (lines : List String) : List AuditRecord := lines.filterMap (recordOf fromJson)

theorem ingestLine_of_fresh {cursor : Option String} {line ts : String} (h : Fresh cursor line)
    (hs : stamp line = some ts) (acc : LogDelta × Option String) :
    ingestLine fromJson cursor acc line =
      ((recordsOf fromJson [line]).foldl LogDelta.add acc.1, newer acc.2 ts) := by
  unfold stamp at hs
  obtain ⟨⟨t, rest⟩, hsplit, rfl⟩ := Option.map_eq_some_iff.mp hs
  have late : ¬(cursor.any fun a => t ≤ a) = true := by
    cases cursor with
    | none => simp
    | some c =>
        have := (fresh_some (by unfold stamp; rw [hsplit]; rfl)).mp h
        simpa using this
  unfold ingestLine recordsOf
  rw [hsplit]
  dsimp only
  rw [if_neg late, List.filterMap_cons, recordOf, hsplit, Option.bind_some]
  cases parseAudit fromJson rest with
  | none => rfl
  | some r => rfl

theorem ingestLine_of_not_fresh {cursor : Option String} {line : String} (h : ¬Fresh cursor line)
    (acc : LogDelta × Option String) : ingestLine fromJson cursor acc line = acc := by
  unfold ingestLine
  cases hsplit : splitDockerTs line with
  | none => rfl
  | some s =>
      have hs : stamp line = some s.1 := by unfold stamp; rw [hsplit]; rfl
      have early : (cursor.any fun a => s.1 ≤ a) = true := by
        cases cursor with
        | none => exact absurd (fresh_none.mpr (by rw [hs]; rfl)) h
        | some c =>
            have older : s.1 ≤ c := String.not_lt.mp fun hc => h ((fresh_some hs).mpr hc)
            exact decide_eq_true older
      dsimp only
      rw [if_pos early]

/-- A poll counts the records of the fresh lines. -/
theorem ingest_fst (lines : List String) (cursor : Option String) :
    (ingest fromJson lines cursor).1 =
      (recordsOf fromJson (lines.filter (Fresh cursor ·))).foldl LogDelta.add {} := by
  unfold ingest
  induction lines using List.reverseRecOn with
  | nil => rfl
  | append_singleton lines line ih =>
      have split : ∀ xs ys, recordsOf fromJson (xs ++ ys) =
          recordsOf fromJson xs ++ recordsOf fromJson ys := fun xs ys => List.filterMap_append
      rw [List.foldl_append, List.foldl_cons, List.foldl_nil, List.filter_append, split,
        List.foldl_append, ← ih]
      by_cases h : Fresh cursor line
      · obtain ⟨ts, hs, _⟩ := id h
        rw [ingestLine_of_fresh fromJson h hs, List.filter_cons_of_pos (by simpa using h)]
        rfl
      · rw [ingestLine_of_not_fresh fromJson h, List.filter_cons_of_neg (by simpa using h)]
        rfl

/-- What a poll leaves as its cursor: a stamp of a fresh line, or the cursor it began with, and
no line is newer. -/
theorem ingest_snd (lines : List String) (cursor : Option String) :
    let n := (ingest fromJson lines cursor).2
    (∀ line, Fresh n line → Fresh cursor line) ∧ (∀ line ∈ lines, ¬Fresh n line) ∧
      (n = cursor ∨ ∃ line ∈ lines, Fresh cursor line ∧ stamp line = n) := by
  unfold ingest
  induction lines using List.reverseRecOn with
  | nil =>
      exact ⟨fun _ h => h, fun _ h => absurd h List.not_mem_nil, Or.inl rfl⟩
  | append_singleton lines line ih =>
      dsimp only at ih ⊢
      rw [List.foldl_append, List.foldl_cons, List.foldl_nil]
      generalize lines.foldl (ingestLine fromJson cursor) ({}, cursor) = acc at ih ⊢
      obtain ⟨older, below, seen⟩ := ih
      by_cases h : Fresh cursor line
      · obtain ⟨ts, hs, hc⟩ := id h
        rw [ingestLine_of_fresh fromJson h hs]
        dsimp only
        by_cases hn : (acc.2.all fun n => n < ts) = true
        · -- the line is the newest so far
          have next : newer acc.2 ts = some ts := if_pos hn
          rw [next]
          have above : ∀ l, Fresh (some ts) l → Fresh acc.2 l := by
            rintro l ⟨t, ht, hlt⟩
            refine ⟨t, ht, ?_⟩
            cases hacc : acc.2 with
            | none => rfl
            | some n =>
                rw [hacc] at hn
                have h₁ : n < ts := by simpa using hn
                have h₂ : ts < t := by simpa using hlt
                simpa using String.lt_trans h₁ h₂
          refine ⟨fun l hl => older l (above l hl), ?_, Or.inr ⟨line, by simp, h, hs⟩⟩
          intro l hl hfresh
          rcases List.mem_append.mp hl with hl | hl
          · exact below l hl (above l hfresh)
          · rw [List.mem_singleton.mp hl, fresh_some hs] at hfresh
            exact String.lt_irrefl _ hfresh
        · have next : newer acc.2 ts = acc.2 := if_neg hn
          rw [next]
          refine ⟨older, ?_, ?_⟩
          · intro l hl hfresh
            rcases List.mem_append.mp hl with hl | hl
            · exact below l hl hfresh
            · rw [List.mem_singleton.mp hl] at hfresh
              obtain ⟨t, ht, hlt⟩ := hfresh
              rw [hs] at ht
              cases ht
              exact hn hlt
          · exact seen.imp_right fun ⟨l, hl, hf⟩ => ⟨l, List.mem_append_left _ hl, hf⟩
      · rw [ingestLine_of_not_fresh fromJson h]
        refine ⟨older, ?_, seen.imp_right fun ⟨l, hl, hf⟩ => ⟨l, List.mem_append_left _ hl, hf⟩⟩
        intro l hl
        rcases List.mem_append.mp hl with hl | hl
        · exact below l hl
        · rw [List.mem_singleton.mp hl]
          exact fun hf => h (older line hf)

/-- Reading lines that are not newer than the cursor changes nothing. -/
theorem pollLog_of_old {cursor : Option String} {lines : List String}
    (old : ∀ line ∈ lines, ¬Fresh cursor line) :
    pollLog fromJson cursor (some lines) = ({}, cursor) := by
  have none_fresh : lines.filter (Fresh cursor ·) = [] := by
    rw [List.filter_eq_nil_iff]
    intro line hl
    simpa using old line hl
  have delta : (ingest fromJson lines cursor).1 = {} := by
    rw [ingest_fst, none_fresh]
    rfl
  have stay : (ingest fromJson lines cursor).2 = cursor := by
    obtain ⟨_, _, seen⟩ := ingest_snd fromJson lines cursor
    refine seen.resolve_right ?_
    rintro ⟨line, hl, hf, _⟩
    exact old line hl hf
  show ((ingest fromJson lines cursor).1, (ingest fromJson lines cursor).2.or cursor) = _
  rw [delta, stay, Option.or_self]

/-! ## Lanes -/

def ofPublic (rs : List AuditRecord) : List AuditRecord := rs.filter (·.caller = "public")

def ofTrusted (rs : List AuditRecord) : List AuditRecord := rs.filter (¬·.caller = "public")

/-- A stretch in which every record is counted in full. -/
def totals (rs : List AuditRecord) : LogDelta where
  publicLane := total (ofPublic rs)
  trustedLane := total (ofTrusted rs)

/-- A stretch is counted lane by lane. -/
theorem foldl_add (rs : List AuditRecord) :
    rs.foldl LogDelta.add {} =
      { publicLane := (ofPublic rs).foldl LaneLog.add {}
        trustedLane := (ofTrusted rs).foldl LaneLog.add {} } := by
  induction rs using List.reverseRecOn with
  | nil => rfl
  | append_singleton rs r ih =>
      unfold ofPublic ofTrusted at ih ⊢
      rw [List.foldl_append, ih, List.filter_append, List.filter_append, List.foldl_append,
        List.foldl_append]
      show LogDelta.add _ r = _
      unfold LogDelta.add
      by_cases hc : r.caller = "public"
      · rw [if_pos hc, List.filter_cons_of_pos (by simpa using hc),
          List.filter_cons_of_neg (by simpa using hc)]
        rfl
      · rw [if_neg hc, List.filter_cons_of_neg (by simpa using hc),
          List.filter_cons_of_pos (by simpa using hc)]
        rfl

/-- At most so many users in each lane as a stretch keeps. -/
def Few (rs : List AuditRecord) : Prop :=
  (usersOf (ofPublic rs)).dedup.length ≤ expMaxUsers ∧
    (usersOf (ofTrusted rs)).dedup.length ≤ expMaxUsers

instance (rs : List AuditRecord) : Decidable (Few rs) := inferInstanceAs (Decidable (_ ∧ _))

theorem foldl_add_of_few {rs : List AuditRecord} (few : Few rs) :
    rs.foldl LogDelta.add {} = totals rs := by
  rw [foldl_add, LogMerge.foldl_add_of_few few.1, LogMerge.foldl_add_of_few few.2]
  rfl

theorem merge_totals (xs ys : List AuditRecord) :
    (totals xs).merge (totals ys) = totals (xs ++ ys) := by
  have pub : ofPublic (xs ++ ys) = ofPublic xs ++ ofPublic ys := List.filter_append ..
  have trusted : ofTrusted (xs ++ ys) = ofTrusted xs ++ ofTrusted ys := List.filter_append ..
  unfold totals
  rw [pub, trusted, ← merge_total, ← merge_total]
  rfl

theorem totals_perm {xs ys : List AuditRecord} (h : xs.Perm ys) : totals xs = totals ys := by
  have pub : (ofPublic xs).Perm (ofPublic ys) := h.filter _
  have trusted : (ofTrusted xs).Perm (ofTrusted ys) := h.filter _
  unfold totals
  rw [total_perm pub, total_perm trusted]

/-! ## Any schedule -/

/-- What is logged later has a later stamp. -/
def Later (log lines : List String) : Prop :=
  ∀ old ∈ log, ∀ line ∈ lines, ∀ t ∈ stamp old, ∀ ts ∈ stamp line, t < ts

instance (log lines : List String) : Decidable (Later log lines) := by
  unfold Later
  infer_instance

/-- What the polls of a log come to, in whatever order the log is written and read: the stretches
they returned, the cursor, the lines of the log that were read and those still waiting. -/
inductive Polled : List LogDelta → Option String → List String → List String → Prop where
  | start : Polled [] none [] []
  | logged {deltas : List LogDelta} {cursor : Option String} {counted waiting : List String}
      (lines : List String) : Polled deltas cursor counted waiting →
      Later (counted ++ waiting) lines → Polled deltas cursor counted (waiting ++ lines)
  /-- a read shows every line after the cursor once, in some order, and old lines at will -/
  | read {deltas : List LogDelta} {cursor : Option String} {counted waiting : List String}
      (lines : List String) : Polled deltas cursor counted waiting →
      (lines.filter (Fresh cursor ·)).Perm ((counted ++ waiting).filter (Fresh cursor ·)) →
      Few (recordsOf fromJson (lines.filter (Fresh cursor ·))) →
      Polled (deltas ++ [(pollLog fromJson cursor (some lines)).1])
        (pollLog fromJson cursor (some lines)).2 (counted ++ waiting) []
  | failed {deltas : List LogDelta} {cursor : Option String} {counted waiting : List String} :
      Polled deltas cursor counted waiting →
      Polled (deltas ++ [(pollLog fromJson cursor none).1]) (pollLog fromJson cursor none).2
        counted waiting

/-- What holds after any polls: the stretches merge to the records of the lines that were read,
the cursor is their newest stamp, and the lines still waiting are newer. -/
structure Counted (deltas : List LogDelta) (cursor : Option String)
    (counted waiting : List String) : Prop where
  merged : deltas.foldl LogDelta.merge {} = totals (recordsOf fromJson counted)
  newest : Newest counted cursor
  waiting : ∀ line ∈ waiting, (stamp line).isSome → Fresh cursor line

theorem filter_waiting {deltas : List LogDelta} {cursor : Option String}
    {counted waiting : List String} (h : Counted fromJson deltas cursor counted waiting) :
    recordsOf fromJson ((counted ++ waiting).filter (Fresh cursor ·)) =
      recordsOf fromJson waiting := by
  have old : counted.filter (Fresh cursor ·) = [] := by
    rw [List.filter_eq_nil_iff]
    intro line hl
    simpa using h.newest.none_newer line hl
  rw [List.filter_append, old, List.nil_append]
  unfold recordsOf
  rw [List.filterMap_filter]
  apply List.filterMap_congr
  intro line hl
  by_cases hf : Fresh cursor line
  · rw [if_pos (by simpa using hf)]
  · rw [if_neg (by simpa using hf)]
    -- a line without a stamp is not a record
    unfold recordOf
    cases hs : splitDockerTs line with
    | none => rfl
    | some s =>
        have stamped : (stamp line).isSome := by unfold stamp; rw [hs]; rfl
        exact absurd (h.waiting line hl stamped) hf

variable {deltas : List LogDelta} {cursor : Option String} {counted waiting : List String}

theorem counted_logged (h : Counted fromJson deltas cursor counted waiting) {lines : List String}
    (later : Later (counted ++ waiting) lines) :
    Counted fromJson deltas cursor counted (waiting ++ lines) := by
  refine ⟨h.merged, h.newest, ?_⟩
  intro line hl hs
  rcases List.mem_append.mp hl with hl | hl
  · exact h.waiting line hl hs
  · rcases h.newest.seen with rfl | ⟨old, hold, hc⟩
    · exact fresh_none.mpr hs
    · obtain ⟨ts, hts⟩ := Option.isSome_iff_exists.mp hs
      refine ⟨ts, hts, ?_⟩
      cases cursor with
      | none => rfl
      | some c => simpa using later old (List.mem_append_left _ hold) line hl c hc ts hts

/-- The cursor of a poll, whatever it began with. -/
theorem pollLog_snd (lines : List String) (cursor : Option String) :
    (pollLog fromJson cursor (some lines)).2 = (ingest fromJson lines cursor).2 := by
  show (ingest fromJson lines cursor).2.or cursor = _
  obtain ⟨_, _, seen⟩ := ingest_snd fromJson lines cursor
  cases hn : (ingest fromJson lines cursor).2 with
  | some n => rfl
  | none =>
      rw [hn] at seen
      rcases seen with rfl | ⟨line, _, ⟨ts, hts, _⟩, hs⟩
      · rfl
      · rw [hts] at hs
        cases hs

theorem newest_read (h : Newest counted cursor) {lines : List String}
    (shown : (lines.filter (Fresh cursor ·)).Perm
      ((counted ++ waiting).filter (Fresh cursor ·))) :
    Newest (counted ++ waiting) (ingest fromJson lines cursor).2 := by
  obtain ⟨older, below, seen⟩ := ingest_snd fromJson lines cursor
  refine ⟨?_, ?_⟩
  · intro line hl hf
    -- a newer line of the log would have been shown
    have mem : line ∈ lines.filter (Fresh cursor ·) :=
      shown.mem_iff.mpr (List.mem_filter.mpr ⟨hl, by simpa using older line hf⟩)
    exact below line (List.mem_filter.mp mem).1 hf
  · rcases seen with hn | ⟨line, hl, hf, hs⟩
    · rw [hn]
      refine h.seen.imp_right ?_
      rintro ⟨line, hl, hs⟩
      exact ⟨line, List.mem_append_left _ hl, hs⟩
    · have mem : line ∈ (counted ++ waiting).filter (Fresh cursor ·) :=
        shown.mem_iff.mp (List.mem_filter.mpr ⟨hl, by simpa using hf⟩)
      exact Or.inr ⟨line, (List.mem_filter.mp mem).1, hs⟩

theorem counted_read (h : Counted fromJson deltas cursor counted waiting) {lines : List String}
    (shown : (lines.filter (Fresh cursor ·)).Perm
      ((counted ++ waiting).filter (Fresh cursor ·)))
    (few : Few (recordsOf fromJson (lines.filter (Fresh cursor ·)))) :
    Counted fromJson (deltas ++ [(pollLog fromJson cursor (some lines)).1])
      (pollLog fromJson cursor (some lines)).2 (counted ++ waiting) [] := by
  have records : (recordsOf fromJson (lines.filter (Fresh cursor ·))).Perm
      (recordsOf fromJson waiting) := by
    rw [← filter_waiting fromJson h]
    exact shown.filterMap _
  have stretch : (pollLog fromJson cursor (some lines)).1 =
      totals (recordsOf fromJson waiting) := by
    show (ingest fromJson lines cursor).1 = _
    rw [ingest_fst, foldl_add_of_few few, totals_perm records]
  have split : recordsOf fromJson (counted ++ waiting) =
      recordsOf fromJson counted ++ recordsOf fromJson waiting := List.filterMap_append
  refine ⟨?_, ?_, fun _ h => absurd h List.not_mem_nil⟩
  · rw [List.foldl_append, h.merged, split, ← merge_totals, ← stretch]
    rfl
  · rw [pollLog_snd]
    exact newest_read fromJson h.newest shown

theorem counted_failed (h : Counted fromJson deltas cursor counted waiting) :
    Counted fromJson (deltas ++ [(pollLog fromJson cursor none).1])
      (pollLog fromJson cursor none).2 counted waiting := by
  refine ⟨?_, h.newest, h.waiting⟩
  rw [List.foldl_append, h.merged]
  show (totals (recordsOf fromJson counted)).merge (totals []) = _
  rw [merge_totals, List.append_nil]

theorem polled_counted (h : Polled fromJson deltas cursor counted waiting) :
    Counted fromJson deltas cursor counted waiting := by
  induction h with
  | start =>
      exact ⟨rfl, ⟨fun _ h => absurd h List.not_mem_nil, Or.inl rfl⟩,
        fun _ h => absurd h List.not_mem_nil⟩
  | logged lines _ later ih => exact counted_logged fromJson ih later
  | read lines _ shown few ih => exact counted_read fromJson ih shown few
  | failed _ ih => exact counted_failed fromJson ih

/-! ## The whole log -/

/-- The log read as a whole, once. -/
def wholeLog (lines : List String) : LogDelta := (ingest fromJson lines none).1

theorem wholeLog_eq (lines : List String) :
    wholeLog fromJson lines = (recordsOf fromJson lines).foldl LogDelta.add {} := by
  unfold wholeLog
  rw [ingest_fst]
  congr 1
  unfold recordsOf
  rw [List.filterMap_filter]
  apply List.filterMap_congr
  intro line _
  by_cases hf : Fresh none line
  · rw [if_pos (by simpa using hf)]
  · rw [if_neg (by simpa using hf)]
    unfold recordOf
    cases hs : splitDockerTs line with
    | none => rfl
    | some s => exact absurd (fresh_none.mpr (by unfold stamp; rw [hs]; rfl)) hf

/-- One lane of the merged polls beside the same lane of the whole log: the same counts and
sums, nobody missing, and the same of everyone the whole log keeps. -/
structure SameLane (merged whole : LaneLog) (rs : List AuditRecord) : Prop where
  counts : merged = { whole with byUser := merged.byUser }
  everyone : ∀ who, who ∈ merged.byUser ↔ who ∈ usersOf rs
  kept : ∀ who ∈ whole.byUser, whole.byUser[who]? = merged.byUser[who]?

theorem sameLane_total (rs : List AuditRecord) :
    SameLane (total rs) (rs.foldl LaneLog.add {}) rs := by
  obtain ⟨counts, users⟩ := kept_total rs
  refine ⟨counts, fun _ => mem_total_byUser, ?_⟩
  rcases users with users | ⟨_, same⟩
  · intro who _
    rw [users]
  · exact same

end Polls

/-! ## Sixty-five users -/

theorem splitAtMark_space {ts : List Char} (h : ' ' ∉ ts) (rest : List Char) :
    splitAtMark [' '] (ts ++ ' ' :: rest) = some (ts, rest) := by
  induction ts with
  | nil => rfl
  | cons c ts ih =>
      obtain ⟨hc, hts⟩ := not_or.mp (List.mem_cons.not.mp h)
      rw [List.cons_append]
      unfold splitAtMark
      rw [if_neg (by simp [List.isPrefixOf, hc]), ih hts]
      rfl

/-- A text that stands where a stamp of the container runtime does is one. -/
def IsStamp (ts : List Char) : Prop :=
  ' ' ∉ ts ∧ 20 ≤ (utf8Bytes ts).length ∧ (utf8Bytes ts)[4]? = some 45 ∧
    (utf8Bytes ts)[10]? = some 84 ∧ ts.getLast? = some 'Z'

instance (ts : List Char) : Decidable (IsStamp ts) := inferInstanceAs (Decidable (_ ∧ _))

theorem splitDockerTs_stamp {ts : List Char} (h : IsStamp ts) (rest : List Char) :
    splitDockerTs (String.ofList (ts ++ ' ' :: rest)) =
      some (String.ofList ts, String.ofList rest) := by
  unfold splitDockerTs
  rw [String.toList_ofList, splitAtMark_space h.1, Option.bind_some, if_pos h.2]

/-- The stamp of a line, one for each of a hundred nanoseconds. -/
def auditStamp (i : ℕ) : List Char :=
  "2026-09-19T11:41:48.0000000".toList ++ Nat.toDigits 10 (i + 10) ++ ['Z']

/-- The key of a line. -/
def auditKey (i : ℕ) : List Char := 'k' :: Nat.toDigits 10 (i + 10)

/-- An answered request of a key. -/
def auditText (key : List Char) : List Char :=
  "\x7b\"caller\": \"public\", \"key\": \"".toList ++ key ++
    "\", \"method\": \"POST\", \"verdict\": \"pass\", \"status\": 200, \"ttfb_ms\": 100\x7d".toList

@[irreducible] def auditLine (i : ℕ) : String :=
  String.ofList (auditStamp i ++ ' ' :: auditText (auditKey i))

/-- The record of such a text. -/
def auditRecord (key : List Char) : AuditRecord :=
  { caller := "public", key := some (String.ofList key), method := "POST", verdict := "pass",
    status := 200, ttfbMs := some 100 }

/-- Reads such a text: the key is the fourth one between quotes. -/
def readAudit (text : String) : Option AuditRecord :=
  match text.toList.splitOn '"' with
  | _ :: _ :: _ :: _ :: _ :: _ :: _ :: key :: _ => some (auditRecord key)
  | _ => none

theorem auditStamp_isStamp : ∀ i < 65, IsStamp (auditStamp i) := by decide +kernel

theorem auditStamp_lt : ∀ i < 65, ∀ j < i, auditStamp j < auditStamp i := by
  have digits : ∀ i < 65, ∀ j < i,
      Nat.toDigits 10 (j + 10) ++ ['Z'] < Nat.toDigits 10 (i + 10) ++ ['Z'] := by decide +kernel
  intro i hi j hj
  unfold auditStamp
  rw [List.append_assoc, List.append_assoc]
  exact List.append_left_lt (digits i hi j hj)

theorem auditText_read : ∀ i < 65,
    (trim (String.ofList (auditText (auditKey i)))).toList.head? = some '\x7b' ∧
      readAudit (trim (String.ofList (auditText (auditKey i)))) =
        some (auditRecord (auditKey i)) := by
  simp only [trim, readAudit, String.toList_ofList]
  decide +kernel

theorem splitDockerTs_auditLine {i : ℕ} (hi : i < 65) :
    splitDockerTs (auditLine i) =
      some (String.ofList (auditStamp i), String.ofList (auditText (auditKey i))) := by
  unfold auditLine
  exact splitDockerTs_stamp (auditStamp_isStamp i hi) _

theorem stamp_auditLine {i : ℕ} (hi : i < 65) :
    stamp (auditLine i) = some (String.ofList (auditStamp i)) := by
  unfold stamp
  rw [splitDockerTs_auditLine hi]
  rfl

theorem stamp_lt_iff {i j : ℕ} (hi : i < 65) (hj : j < 65) :
    String.ofList (auditStamp i) < String.ofList (auditStamp j) ↔ i < j := by
  rw [String.lt_iff, String.toList_ofList, String.toList_ofList]
  constructor
  · intro h
    by_contra hij
    rcases Nat.lt_or_eq_of_le (Nat.le_of_not_lt hij) with hji | rfl
    · exact List.lt_asymm h (auditStamp_lt i hi j hji)
    · exact List.lt_irrefl _ h
  · exact auditStamp_lt j hj i

theorem fresh_auditLine {i c : ℕ} (hi : i < 65) (hc : c < 65) :
    Fresh (some (String.ofList (auditStamp c))) (auditLine i) ↔ c < i := by
  rw [fresh_some (stamp_auditLine hi), stamp_lt_iff hc hi]

theorem recordOf_auditLine {i : ℕ} (hi : i < 65) :
    recordOf readAudit (auditLine i) = some (auditRecord (auditKey i)) := by
  obtain ⟨head, read⟩ := auditText_read i hi
  unfold recordOf
  rw [splitDockerTs_auditLine hi, Option.bind_some]
  unfold parseAudit
  dsimp only
  rw [if_pos head, read]

theorem later_auditLine {is js : List ℕ} (h : ∀ i ∈ is, ∀ j ∈ js, i < j ∧ j < 65) :
    Later (is.map auditLine) (js.map auditLine) := by
  intro old hold line hl t ht ts hts
  obtain ⟨i, hi, rfl⟩ := List.mem_map.mp hold
  obtain ⟨j, hj, rfl⟩ := List.mem_map.mp hl
  obtain ⟨hij, hj⟩ := h i hi j hj
  rw [stamp_auditLine (hij.trans hj)] at ht
  rw [stamp_auditLine hj] at hts
  cases ht
  cases hts
  exact (stamp_lt_iff (hij.trans hj) hj).mpr hij

theorem recordsOf_auditLines {is : List ℕ} (h : ∀ i ∈ is, i < 65) :
    recordsOf readAudit (is.map auditLine) = is.map fun i => auditRecord (auditKey i) := by
  unfold recordsOf
  rw [List.filterMap_map, ← List.filterMap_eq_map]
  exact List.filterMap_congr fun i hi => recordOf_auditLine (h i hi)

theorem experience_auditRecord (i : ℕ) :
    (auditRecord (auditKey i)).experience = some (String.ofList (auditKey i), 100) := by
  have named : String.ofList (auditKey i) ≠ "" := by
    intro h
    have : auditKey i = [] := by rw [← String.toList_ofList (l := auditKey i), h]; rfl
    cases this
  have who : (auditRecord (auditKey i)).who = some (String.ofList (auditKey i)) := by
    show (some (String.ofList (auditKey i))).filter (fun w => w ≠ "") = _
    rw [Option.filter_some, if_pos (by simpa using named)]
  have counted : AuditRecord.counted (some 100) = some 100 := by decide +kernel
  have ttfb : (auditRecord (auditKey i)).ttfbMs = some 100 := rfl
  have answered : (auditRecord (auditKey i)).answered = true := rfl
  unfold AuditRecord.experience
  rw [if_pos answered, ttfb, counted, Option.bind_some, who]
  rfl

theorem auditKeys_nodup : ((List.range 65).map fun i => String.ofList (auditKey i)).Nodup := by
  have distinct : ((List.range 65).map auditKey).Nodup := by decide +kernel
  have := distinct.map fun _ _ h => String.ofList_injective h
  rwa [List.map_map] at this

/-- Everybody is a user of a lane counted in full. -/
theorem mem_total_auditRecords {is : List ℕ} {i : ℕ} (hi : i ∈ is) :
    String.ofList (auditKey i) ∈
      (total (ofPublic (is.map fun i => auditRecord (auditKey i)))).byUser := by
  rw [mem_total_byUser]
  refine List.mem_filterMap.mpr ⟨auditRecord (auditKey i), ?_, ?_⟩
  · exact List.mem_filter.mpr ⟨List.mem_map.mpr ⟨i, hi, rfl⟩, rfl⟩
  · have post : (auditRecord (auditKey i)).method = "POST" := rfl
    rw [if_pos post, experience_auditRecord]
    rfl

/-- Few records have few users. -/
theorem few_of_length {rs : List AuditRecord} (h : rs.length ≤ expMaxUsers) : Few rs := by
  have lane : ∀ p : AuditRecord → Bool, (usersOf (rs.filter p)).dedup.length ≤ expMaxUsers := by
    intro p
    calc (usersOf (rs.filter p)).dedup.length
        ≤ (usersOf (rs.filter p)).length := (List.dedup_sublist _).length_le
      _ ≤ (rs.filter p).length := List.length_filterMap_le _ _
      _ ≤ rs.length := List.length_filter_le _ _
      _ ≤ expMaxUsers := h
  exact ⟨lane _, lane _⟩

end Lss.Analysis.GatePolls
