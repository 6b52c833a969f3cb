import Lss.Analysis.LogDeltas
import Lss.Library.Ranking
import Lss.Model.Lanes

/-!
# The monitor's share of a lane

The collector's own probes are taken out of the trusted lane: out of the requests of the last ten
minutes, out of the answers of a class, and out of the hour's row without a key. Each is lowered on
its own and never below zero. Nothing else is touched, and where every probe has its line in the log
what is left is the lane of the other lines. But a probe without its line lowers the requests even
where its class has nothing to give, and then the lane can show more answers than requests.
-/

set_option autoImplicit false

namespace Lss.Analysis.MonitorShare

open Lss.Library Lss.Library.Entries Lss.Library.Tally Lss.Model Lss.Model.Lanes

/-! ## The probes that are counted -/

/-- The probes of a span that the gateway logged. -/
def logged (now span : ℤ) (probes : List ProbeRecord) : List ProbeRecord :=
  probes.filter fun p => inSpan now span p ∧ p.gateLoggedStatus.isSome

/-- How many probes of the ten minutes were answered with a class of codes. -/
def answered (now : ℤ) (probes : List ProbeRecord) (c : ℕ) : ℕ :=
  (logged now rateWindowSecs probes).countP fun p => p.gateLoggedStatus.any fun code => code / 100 = c

/-- How many probes of the ten minutes were answered with none of the three classes. -/
def unclassed (now : ℤ) (probes : List ProbeRecord) : ℕ :=
  (logged now rateWindowSecs probes).countP fun p =>
    p.gateLoggedStatus.all fun code => code / 100 ≠ 2 ∧ code / 100 ≠ 4 ∧ code / 100 ≠ 5

/-- The answers of a lane. -/
def answers (c : CodeClasses) : ℕ := c.c2xx + c.c4xx + c.c5xx

/-- Every probe of the ten minutes has a class or none. -/
theorem length_logged (now : ℤ) (probes : List ProbeRecord) :
    (logged now rateWindowSecs probes).length =
      answered now probes 2 + answered now probes 4 + answered now probes 5 +
        unclassed now probes := by
  unfold answered unclassed
  have whole : ∀ p ∈ logged now rateWindowSecs probes, p.gateLoggedStatus.isSome := by
    intro p hp
    simp only [logged, List.mem_filter, decide_eq_true_eq] at hp
    exact hp.2.2
  generalize logged now rateWindowSecs probes = ps at whole
  induction ps with
  | nil => rfl
  | cons p ps ih =>
      have rest := ih fun q hq => whole q (List.mem_cons_of_mem _ hq)
      obtain ⟨code, hcode⟩ := Option.isSome_iff_exists.mp (whole p List.mem_cons_self)
      simp only [List.length_cons, List.countP_cons, hcode, Option.any_some, Option.all_some,
        decide_eq_true_eq]
      split <;> split <;> split <;> split <;> omega

theorem logged_cons (now span : ℤ) (p : ProbeRecord) (probes : List ProbeRecord) :
    (logged now span (p :: probes)).length =
      (logged now span probes).length +
        if inSpan now span p ∧ p.gateLoggedStatus.isSome then 1 else 0 := by
  unfold logged
  rw [List.filter_cons]
  split <;> simp_all

theorem answered_cons (now : ℤ) (p : ProbeRecord) (probes : List ProbeRecord) (c : ℕ) :
    answered now (p :: probes) c =
      answered now probes c +
        if inSpan now rateWindowSecs p ∧ p.gateLoggedStatus.any (fun code => code / 100 = c) then 1
        else 0 := by
  unfold answered logged
  rw [List.filter_cons]
  cases hp : p.gateLoggedStatus <;> split <;> simp_all [List.countP_cons]

theorem lower_eq (c : CodeClasses) (code : ℕ) :
    c.lower code =
      ⟨c.c2xx - if code / 100 = 2 then 1 else 0, c.c4xx - if code / 100 = 4 then 1 else 0,
        c.c5xx - if code / 100 = 5 then 1 else 0⟩ := by
  unfold CodeClasses.lower
  split <;> simp_all

/-- What the probes make of the answers and of the monitor's share. -/
theorem countProbe_foldl (now : ℤ) (probes : List ProbeRecord) (c : CodeClasses) (s : LaneProbes) :
    probes.foldl (countProbe now) (c, s) =
      (⟨c.c2xx - answered now probes 2, c.c4xx - answered now probes 4,
          c.c5xx - answered now probes 5⟩,
        { s with
          requests10m := s.requests10m + (logged now rateWindowSecs probes).length
          requests60m := s.requests60m + (logged now historySecs probes).length }) := by
  induction probes generalizing c s with
  | nil => rfl
  | cons p probes ih =>
      simp only [logged_cons, answered_cons]
      rw [List.foldl_cons, countProbe]
      cases p.gateLoggedStatus with
      | none => simp [ih]
      | some code =>
          simp only [lower_eq, Option.isSome_some, and_true, Option.any_some, decide_eq_true_eq]
          by_cases in10 : inSpan now rateWindowSecs p
          · by_cases in60 : inSpan now historySecs p <;>
              simp only [in10, in60, if_true, if_false, true_and, ih, Nat.sub_sub, Nat.add_zero,
                Nat.add_assoc, Nat.add_comm 1, Nat.add_comm (if _ then 1 else 0)]
          · by_cases in60 : inSpan now historySecs p <;>
              simp only [in10, in60, if_true, if_false, false_and, ih, Nat.add_zero, Nat.add_assoc,
                Nat.add_comm 1]

/-! ## The rows of the keys -/

/-- What the rows of a key count. -/
def countOf (rows : List KeyCount) (key : String) : ℕ :=
  ((rows.filter fun k => k.key = key).map KeyCount.count).sum

/-- What all rows count. -/
def counted (rows : List KeyCount) : ℕ := (rows.map KeyCount.count).sum

/-- Taking requests out of the row without a key never goes below zero, takes no more than asked,
lowers what the rows count by what it took and touches no other key. -/
theorem lowerNoKey_spec (asked : ℕ) (rows : List KeyCount) :
    ∃ taken lowered, lowerNoKey asked rows = some (taken, lowered) ∧
      counted lowered + taken = counted rows ∧
      ∀ key, key ≠ noKey → countOf lowered key = countOf rows key := by
  induction rows with
  | nil => exact ⟨0, [], rfl, rfl, fun _ _ => rfl⟩
  | cons row rows ih =>
      obtain ⟨taken, lowered, hrest, hsum, hothers⟩ := ih
      by_cases hrow : row.key = noKey
      · have enough : min asked row.count ≤ row.count := min_le_right _ _
        refine ⟨min asked row.count, { row with count := row.count - min asked row.count } :: rows,
          ?_, ?_, ?_⟩
        · rw [lowerNoKey, if_pos hrow]
          simp [checkedSub]
        · simp only [counted, List.map_cons, List.sum_cons]
          omega
        · intro key hkey
          have other : row.key ≠ key := fun h => hkey (h ▸ hrow)
          simp [countOf, other]
      · refine ⟨taken, row :: lowered, ?_, ?_, ?_⟩
        · rw [lowerNoKey, if_neg hrow, hrest]
          rfl
        · simp only [counted, List.map_cons, List.sum_cons] at hsum ⊢
          omega
        · intro key hkey
          have same := hothers key hkey
          unfold countOf at same ⊢
          simp only [List.filter_cons]
          split <;> simp [same]

/-- The rows that count something, in order. -/
def ranked (rows : List KeyCount) : List KeyCount :=
  (rows.filter fun k => 0 < k.count).insertionSort KeyCount.busiest

/-- Dropping the rows that count nothing and putting the others in order changes no count. -/
theorem sum_ranked (p : KeyCount → Bool) (rows : List KeyCount) :
    (((ranked rows).filter p).map KeyCount.count).sum =
      ((rows.filter p).map KeyCount.count).sum := by
  have perm := ((List.perm_insertionSort KeyCount.busiest
    (rows.filter fun k => 0 < k.count)).filter p).map KeyCount.count
  rw [ranked, perm.sum_eq, List.filter_filter]
  clear perm
  induction rows with
  | nil => rfl
  | cons row rows ih =>
      cases hp : p row with
      | false => simp [hp, ih]
      | true =>
          by_cases hpos : 0 < row.count
          · simp [hp, hpos, ih]
          · have none : row.count = 0 := by omega
            simp [hp, none, ih]

theorem countOf_ranked (rows : List KeyCount) (key : String) :
    countOf (ranked rows) key = countOf rows key := sum_ranked _ rows

theorem counted_ranked (rows : List KeyCount) : counted (ranked rows) = counted rows := by
  have whole := sum_ranked (fun _ => true) rows
  simpa [counted] using whole

/-- What taking the probes out leaves of a lane. -/
theorem subtractProbes_eq (lane : LaneStatus) (probes : List ProbeRecord) (now : ℤ)
    (admitted : ℕ) {taken : ℕ} {lowered : List KeyCount}
    (h : lowerNoKey (logged now historySecs probes).length lane.topKeys60m =
      some (taken, lowered)) :
    subtractProbes lane probes now admitted =
      some { lane with
        requests10m := lane.requests10m - (logged now rateWindowSecs probes).length
        admitted := lane.admitted - admitted
        codes10m := ⟨lane.codes10m.c2xx - answered now probes 2,
          lane.codes10m.c4xx - answered now probes 4, lane.codes10m.c5xx - answered now probes 5⟩
        topKeys60m := ranked lowered
        probes :=
          { admitted := min admitted lane.admitted
            requests10m := min (logged now rateWindowSecs probes).length lane.requests10m
            requests60m := taken } } := by
  have left (a b : ℕ) : checkedSub b (min a b) = some (b - a) := by
    rw [checkedSub, if_pos (min_le_right a b)]
    congr 1
    omega
  unfold subtractProbes
  rw [countProbe_foldl]
  simp only [Nat.zero_add, left, h]
  rfl

/-! ## What a lane counts of its lines -/

/-- A sample and the lines that the trusted lane logged since the one before, each with the probe
that sent it, if one did. -/
abbrev Poll := Sample × List (Option ProbeRecord × AuditRecord)

def logOf (lines : List AuditRecord) : LaneLog := lines.foldl LaneLog.add {}

/-- The sample of a poll, with some of its lines. -/
def sampleOf (keep : Option ProbeRecord → Bool) (p : Poll) : Sample :=
  { p.1 with log := { p.1.log with
      trustedLane := logOf ((p.2.filter fun l => keep l.1).map Prod.snd) } }

/-- The lines of the polls of a span. -/
def linesSince (polls : List Poll) (since : ℤ) : List (Option ProbeRecord × AuditRecord) :=
  (polls.filter fun p => since < p.1.ts).flatMap Prod.snd

/-- A number that a log counts line by line. -/
structure Additive (m : LaneLog → ℕ) (c : AuditRecord → ℕ) : Prop where
  empty : m {} = 0
  add : ∀ l r, m (l.add r) = m l + c r
  merge : ∀ l o, m (l.merge o) = m l + m o

namespace Additive

variable {m : LaneLog → ℕ} {c : AuditRecord → ℕ} (h : Additive m c)

include h

theorem logOf (lines : List AuditRecord) : m (logOf lines) = (lines.map c).sum := by
  have from_ (l : LaneLog) : m (lines.foldl LaneLog.add l) = m l + (lines.map c).sum := by
    induction lines generalizing l with
    | nil => simp
    | cons r lines ih => rw [List.foldl_cons, ih, h.add, List.map_cons, List.sum_cons, Nat.add_assoc]
  rw [MonitorShare.logOf, from_, h.empty, Nat.zero_add]

theorem laneLog (polls : List Poll) (keep : Option ProbeRecord → Bool) (since : ℤ) :
    m (Lanes.laneLog (polls.map (sampleOf keep)) since fun s => s.log.trustedLane) =
      (((linesSince polls since).filter fun l => keep l.1).map fun l => c l.2).sum := by
  have merged (samples : List Sample) (l : LaneLog) :
      m (samples.foldl (fun acc s => acc.merge s.log.trustedLane) l) =
        m l + (samples.map fun s => m s.log.trustedLane).sum := by
    induction samples generalizing l with
    | nil => simp
    | cons s samples ih =>
        rw [List.foldl_cons, ih, h.merge, List.map_cons, List.sum_cons, Nat.add_assoc]
  rw [Lanes.laneLog, merged, h.empty, Nat.zero_add, linesSince]
  induction polls with
  | nil => rfl
  | cons p polls ih =>
      have kept : (since < (sampleOf keep p).ts) = (since < p.1.ts) := rfl
      rw [List.map_cons, List.filter_cons, List.filter_cons]
      simp only [kept]
      split
      · rw [List.map_cons, List.sum_cons, ih, List.flatMap_cons, List.filter_append,
          List.map_append, List.sum_append]
        congr 1
        rw [sampleOf, h.logOf, List.map_map]
        rfl
      · exact ih

end Additive

theorem additive_requests :
    Additive LaneLog.requests fun r => if r.method = "POST" then 1 else 0 where
  empty := rfl
  merge _ _ := rfl
  add l r := by
    unfold LaneLog.add
    by_cases post : r.method = "POST" <;> simp [post]

theorem classCount_eq (codes : Std.ExtTreeMap ℕ ℕ) (c : ℕ) :
    GatewayRow.classCount codes c = total id (codes.filter fun status _ => status / 100 = c) := by
  unfold GatewayRow.classCount total
  rw [Std.ExtTreeMap.toList_filter]
  rfl

theorem additive_class (c : ℕ) :
    Additive (fun l => GatewayRow.classCount l.byStatus c)
      fun r => if r.method = "POST" ∧ r.status / 100 = c then 1 else 0 where
  empty := by
    rw [classCount_eq]
    rfl
  merge l o := by
    simp only [classCount_eq]
    change total id ((mergeInto (· + ·) l.byStatus o.byStatus).filter _) = _
    rw [filter_mergeInto (fun status => decide (status / 100 = c))]
    exact LogDeltas.total_counts_merge _ _
  add l r := by
    simp only [classCount_eq]
    unfold LaneLog.add
    by_cases post : r.method = "POST"
    · simp only [post, ne_eq, not_true_eq_false, if_false, true_and]
      change total id ((change l.byStatus r.status (· + 1)).filter _) = _
      rw [filter_change (fun status => decide (status / 100 = c))]
      by_cases own : r.status / 100 = c
      · simp only [own, decide_true, if_true]
        exact LogDeltas.total_count_add _ _
      · simp [own]
    · simp [post]

theorem additive_key (key : String) :
    Additive (fun l => (l.byKey[key]?).getD 0)
      fun r => if r.method = "POST" ∧ r.key.getD noKey = key then 1 else 0 where
  empty := rfl
  merge l o := by
    change ((mergeInto (· + ·) l.byKey o.byKey)[key]?).getD 0 = _
    rw [getElem?_mergeInto]
    cases o.byKey[key]? <;> rfl
  add l r := by
    unfold LaneLog.add
    by_cases post : r.method = "POST"
    · simp only [post, ne_eq, not_true_eq_false, if_false, true_and]
      change ((change l.byKey (r.key.getD noKey) (· + 1))[key]?).getD 0 = _
      rw [getElem?_change]
      by_cases own : r.key.getD noKey = key
      · simp only [own, if_true]
        rfl
      · simp [own]
    · simp [post]

/-! ## Probes that have their lines -/

/-- Every probe that the gateway logged in the ten minutes and in the hour has its own line there,
of its class and without a key. -/
structure OwnLines (polls : List Poll) (probes : List ProbeRecord) (now : ℤ) : Prop where
  booked : ∀ span, span = rateWindowSecs ∨ span = historySecs →
    ((linesSince polls (now - span)).filterMap Prod.fst).Perm (logged now span probes)
  own : ∀ poll ∈ polls, ∀ p r, (some p, r) ∈ poll.2 →
    r.method = "POST" ∧ r.key.getD noKey = noKey ∧
      p.gateLoggedStatus.any fun code => r.status / 100 = code / 100

/-- The hour of samples with all the lines. -/
def allLines (polls : List Poll) : History := polls.map (sampleOf fun _ => true)

/-- The hour of samples with the lines of the others alone. -/
def otherLines (polls : List Poll) : History := polls.map (sampleOf Option.isNone)

section OwnLines

variable {polls : List Poll} {probes : List ProbeRecord} {now : ℤ}

/-- What all lines count is what the others' count, and what the probes' own add to it. -/
theorem Additive.split {m : LaneLog → ℕ} {c : AuditRecord → ℕ} (h : Additive m c)
    (owned : OwnLines polls probes now) {span : ℤ}
    (known : span = rateWindowSecs ∨ span = historySecs) (share : ProbeRecord → ℕ)
    (hshare : ∀ poll ∈ polls, ∀ p r, (some p, r) ∈ poll.2 → c r = share p) :
    m (Lanes.laneLog (allLines polls) (now - span) fun s => s.log.trustedLane) =
      m (Lanes.laneLog (otherLines polls) (now - span) fun s => s.log.trustedLane) +
        ((logged now span probes).map share).sum := by
  rw [allLines, otherLines, h.laneLog, h.laneLog,
    ← ((owned.booked span known).map share).sum_eq]
  have lines : ∀ l ∈ linesSince polls (now - span), ∀ p, l.1 = some p → c l.2 = share p := by
    intro l hl p hp
    obtain ⟨poll, hpoll, hin⟩ := List.mem_flatMap.mp hl
    exact hshare poll (List.mem_of_mem_filter hpoll) p l.2 (by rw [← hp]; exact hin)
  generalize linesSince polls (now - span) = ls at lines
  induction ls with
  | nil => rfl
  | cons l ls ih =>
      have rest := ih fun k hk => lines k (List.mem_cons_of_mem _ hk)
      have first := lines l List.mem_cons_self
      obtain ⟨sender, r⟩ := l
      cases sender with
      | none =>
          simp only [List.filter_cons, Option.isNone_none, if_true, List.map_cons, List.sum_cons,
            List.filterMap_cons, rest, Nat.add_assoc]
      | some p =>
          simp only [List.filter_cons, Option.isNone_some, Bool.false_eq_true, if_true, if_false,
            List.map_cons, List.sum_cons, List.filterMap_cons, rest, first p rfl]
          omega

/-- The requests are those of the others and one for each probe. -/
theorem requests_split (owned : OwnLines polls probes now) :
    (Lanes.laneLog (allLines polls) (now - rateWindowSecs) fun s => s.log.trustedLane).requests =
      (Lanes.laneLog (otherLines polls) (now - rateWindowSecs)
        fun s => s.log.trustedLane).requests + (logged now rateWindowSecs probes).length := by
  have split := additive_requests.split owned (Or.inl rfl) (fun _ => 1) fun poll hpoll p r hr => by
    rw [if_pos (owned.own poll hpoll p r hr).1]
  simpa using split

/-- The answers of a class are those of the others and one for each probe of that class. -/
theorem class_split (owned : OwnLines polls probes now) (c : ℕ) :
    GatewayRow.classCount (Lanes.laneLog (allLines polls) (now - rateWindowSecs)
        fun s => s.log.trustedLane).byStatus c =
      GatewayRow.classCount (Lanes.laneLog (otherLines polls) (now - rateWindowSecs)
        fun s => s.log.trustedLane).byStatus c + answered now probes c := by
  have split := (additive_class c).split owned (Or.inl rfl)
    (fun p => if p.gateLoggedStatus.any fun code => code / 100 = c then 1 else 0)
    fun poll hpoll p r hr => by
      obtain ⟨post, -, same⟩ := owned.own poll hpoll p r hr
      obtain ⟨code, hcode, hclass⟩ := (Option.any_eq_true _ _).mp same
      simp only [decide_eq_true_eq] at hclass
      simp [post, hcode, hclass]
  rw [split, answered]
  congr 1
  induction logged now rateWindowSecs probes with
  | nil => rfl
  | cons p ps ih => rw [List.map_cons, List.sum_cons, ih, List.countP_cons, Nat.add_comm]

/-- The hour's requests of a key are those of the others, and one for each probe where it is the
row without a key. -/
theorem key_split (owned : OwnLines polls probes now) (key : String) :
    ((Lanes.laneLog (allLines polls) (now - historySecs)
        fun s => s.log.trustedLane).byKey[key]?).getD 0 =
      ((Lanes.laneLog (otherLines polls) (now - historySecs)
        fun s => s.log.trustedLane).byKey[key]?).getD 0 +
        if key = noKey then (logged now historySecs probes).length else 0 := by
  have split := (additive_key key).split owned (Or.inr rfl)
    (fun _ => if key = noKey then 1 else 0) fun poll hpoll p r hr => by
      obtain ⟨post, keyless, -⟩ := owned.own poll hpoll p r hr
      simp [post, keyless, eq_comm]
  rw [split]
  by_cases h : key = noKey <;> simp [h]

end OwnLines

/-! ## The first rows -/

instance : Std.Total KeyCount.busiest where
  total a b := by
    unfold KeyCount.busiest
    rcases lt_trichotomy a.count b.count with h | h | h
    · exact Or.inr (Or.inl h)
    · rcases String.le_total a.key b.key with hkey | hkey
      · exact Or.inl (Or.inr ⟨h.symm, hkey⟩)
      · exact Or.inr (Or.inr ⟨h, hkey⟩)
    · exact Or.inl (Or.inl h)

instance : IsTrans KeyCount KeyCount.busiest where
  trans a b c hab hbc := by
    unfold KeyCount.busiest at *
    rcases hab with hab | ⟨hab, habKey⟩ <;> rcases hbc with hbc | ⟨hbc, hbcKey⟩
    · exact Or.inl (by omega)
    · exact Or.inl (by omega)
    · exact Or.inl (by omega)
    · exact Or.inr ⟨by omega, String.le_trans habKey hbcKey⟩

instance : Std.Antisymm KeyCount.busiest where
  antisymm a b hab hba := by
    unfold KeyCount.busiest at *
    obtain ⟨key, count⟩ := a
    obtain ⟨key', count'⟩ := b
    rcases hab with hab | ⟨hab, habKey⟩ <;> rcases hba with hba | ⟨hba, hbaKey⟩ <;>
      simp only at *
    · omega
    · omega
    · omega
    · rw [hba, String.le_antisymm habKey hbaKey]

/-- A row without a key among others, in its place if it counts something. -/
def withNoKey (others : List KeyCount) (n : ℕ) : List KeyCount :=
  if 0 < n then others.orderedInsert KeyCount.busiest ⟨noKey, n⟩ else others

section First

variable {others : List KeyCount}

theorem lowerNoKey_of_none (asked : ℕ) (keyed : ∀ k ∈ others, k.key ≠ noKey) :
    lowerNoKey asked others = some (0, others) := by
  induction others with
  | nil => rfl
  | cons k ks ih =>
      rw [lowerNoKey, if_neg (keyed k List.mem_cons_self),
        ih fun l hl => keyed l (List.mem_cons_of_mem _ hl)]
      rfl

theorem lowerNoKey_append (asked n : ℕ) (behind : List KeyCount)
    (keyed : ∀ k ∈ others, k.key ≠ noKey) :
    lowerNoKey asked (others ++ ⟨noKey, n⟩ :: behind) =
      some (min asked n, others ++ ⟨noKey, n - asked⟩ :: behind) := by
  induction others with
  | nil =>
      have left : n - min asked n = n - asked := by omega
      simp [lowerNoKey, checkedSub, left]
  | cons k ks ih =>
      rw [List.cons_append, lowerNoKey, if_neg (keyed k List.mem_cons_self),
        ih fun l hl => keyed l (List.mem_cons_of_mem _ hl)]
      rfl

/-- Rows in order that all count something stay as they are. -/
theorem ranked_of_sorted (sorted : others.Pairwise KeyCount.busiest)
    (positive : ∀ k ∈ others, 0 < k.count) : ranked others = others := by
  unfold ranked
  rw [List.filter_eq_self.mpr (by simpa using positive)]
  exact sorted.insertionSort_eq

/-- A row put among rows in order is put in its place. -/
theorem ranked_middle {before behind : List KeyCount} (n : ℕ)
    (sorted : (before ++ behind).Pairwise KeyCount.busiest)
    (positive : ∀ k ∈ before ++ behind, 0 < k.count) :
    ranked (before ++ ⟨noKey, n⟩ :: behind) = withNoKey (before ++ behind) n := by
  unfold withNoKey
  split
  case isTrue hn =>
    have every : ∀ k ∈ before ++ ⟨noKey, n⟩ :: behind, 0 < k.count := by
      intro k hk
      rcases List.mem_append.mp hk with hk | hk
      · exact positive k (List.mem_append_left _ hk)
      · rcases List.mem_cons.mp hk with rfl | hk
        · exact hn
        · exact positive k (List.mem_append_right _ hk)
    unfold ranked
    rw [List.filter_eq_self.mpr (by simpa using every)]
    apply List.Perm.eq_of_pairwise' (r := KeyCount.busiest)
    · exact List.pairwise_insertionSort _ _
    · exact sorted.orderedInsert _ _
    · exact (List.perm_insertionSort _ _).trans
        (List.perm_middle.trans (List.perm_orderedInsert _ _ _).symm)
  case isFalse hn =>
    obtain rfl : n = 0 := by omega
    have dropped : (before ++ (⟨noKey, 0⟩ : KeyCount) :: behind).filter (fun k => 0 < k.count) =
        (before ++ behind).filter fun k => 0 < k.count := by simp
    have same : ranked (before ++ ⟨noKey, 0⟩ :: behind) = ranked (before ++ behind) := by
      unfold ranked
      rw [dropped]
    rw [same, ranked_of_sorted sorted positive]

theorem take_withNoKey (others : List KeyCount) (n k : ℕ) :
    (withNoKey (others.take k) n).take k = (withNoKey others n).take k := by
  unfold withNoKey
  split
  · exact (Ranking.take_orderedInsert _ _ _ _).symm
  · simp [List.take_take]

/-- One row more than is shown is enough: the row without a key may be lowered and may go. -/
theorem take_ranked_lowered (sorted : others.Pairwise KeyCount.busiest)
    (keyed : ∀ k ∈ others, k.key ≠ noKey) (positive : ∀ k ∈ others, 0 < k.count) (left asked : ℕ)
    {taken : ℕ} {lowered : List KeyCount}
    (h : lowerNoKey asked ((withNoKey others (left + asked)).take 6) = some (taken, lowered)) :
    (ranked lowered).take 5 = (withNoKey others left).take 5 := by
  have untouched (same : (withNoKey others (left + asked)).take 6 = others.take 6) :
      ranked lowered = others.take 6 := by
    rw [same, lowerNoKey_of_none asked fun k hk => keyed k (List.mem_of_mem_take hk)] at h
    obtain ⟨rfl, rfl⟩ := Prod.mk.inj (Option.some.inj h)
    exact ranked_of_sorted (sorted.sublist (List.take_sublist _ _))
      fun k hk => positive k (List.mem_of_mem_take hk)
  by_cases some_ : 0 < left + asked
  · -- the row stands behind those before it and in front of the others
    have place := List.orderedInsert_eq_take_drop KeyCount.busiest ⟨noKey, left + asked⟩ others
    have parts := List.takeWhile_append_dropWhile
      (p := fun k => decide ¬ KeyCount.busiest ⟨noKey, left + asked⟩ k) (l := others)
    have ahead : ∀ k ∈ others.takeWhile fun k =>
        decide ¬ KeyCount.busiest ⟨noKey, left + asked⟩ k,
        ¬ KeyCount.busiest ⟨noKey, left + asked⟩ k := by
      intro k hk
      simpa using List.all_eq_true.mp List.all_takeWhile k hk
    generalize (others.takeWhile fun k => decide ¬ KeyCount.busiest ⟨noKey, left + asked⟩ k) =
      before at place parts ahead
    generalize (others.dropWhile fun k => decide ¬ KeyCount.busiest ⟨noKey, left + asked⟩ k) =
      behind at place parts
    rw [withNoKey, if_pos some_, place] at h untouched
    subst parts
    have keyedBefore : ∀ k ∈ before, k.key ≠ noKey :=
      fun k hk => keyed k (List.mem_append_left _ hk)
    by_cases near : before.length ≤ 5
    · have cut : (before ++ ⟨noKey, left + asked⟩ :: behind).take 6 =
          before ++ ⟨noKey, left + asked⟩ :: behind.take (5 - before.length) := by
        rw [List.take_append, List.take_of_length_le (by omega),
          show 6 - before.length = 5 - before.length + 1 by omega, List.take_succ_cons]
      have top : before ++ behind.take (5 - before.length) = (before ++ behind).take 5 := by
        rw [List.take_append, List.take_of_length_le near]
      rw [cut, lowerNoKey_append asked _ _ keyedBefore, Nat.add_sub_cancel] at h
      obtain ⟨rfl, rfl⟩ := Prod.mk.inj (Option.some.inj h)
      rw [ranked_middle left (top ▸ sorted.sublist (List.take_sublist _ _))
        (top ▸ fun k hk => positive k (List.mem_of_mem_take hk)), top, take_withNoKey]
    · have cut : (before ++ ⟨noKey, left + asked⟩ :: behind).take 6 = (before ++ behind).take 6 := by
        rw [List.take_append_of_le_length (by omega), List.take_append_of_le_length (by omega)]
      rw [untouched cut, List.take_take, withNoKey]
      split
      · symm
        apply Ranking.take_orderedInsert_of_behind
        · rw [List.length_append]
          omega
        · intro k hk later
          rw [List.take_append_of_le_length (by omega)] at hk
          -- the row has only gone back
          apply ahead k (List.mem_of_mem_take hk)
          apply IsTrans.trans _ ⟨noKey, left⟩ _ _ later
          unfold KeyCount.busiest
          rcases Nat.eq_zero_or_pos asked with rfl | hasked
          · exact Or.inr ⟨rfl, String.le_refl _⟩
          · exact Or.inl (by simp only; omega)
      · rfl
  · obtain rfl : left = 0 := by omega
    obtain rfl : asked = 0 := by omega
    rw [untouched (by simp [withNoKey]), List.take_take]
    simp [withNoKey]

end First

/-! ## The keys of a log -/

/-- Every key of a log was seen at least once. -/
def Seen (l : LaneLog) : Prop := ∀ (key : String) (n : ℕ), l.byKey[key]? = some n → 0 < n

theorem seen_add {l : LaneLog} (h : Seen l) (r : AuditRecord) : Seen (l.add r) := by
  unfold LaneLog.add
  by_cases post : r.method = "POST"
  · rw [if_neg (not_not.mpr post)]
    intro key n hn
    change (change l.byKey (r.key.getD noKey) (· + 1))[key]? = some n at hn
    rw [getElem?_change] at hn
    split at hn
    · cases hn
      exact Nat.succ_pos _
    · exact h key n hn
  · rw [if_pos post]
    exact h

theorem seen_merge {l o : LaneLog} (hl : Seen l) (ho : Seen o) : Seen (l.merge o) := by
  intro key n hn
  change (mergeInto (· + ·) l.byKey o.byKey)[key]? = some n at hn
  rw [getElem?_mergeInto] at hn
  cases hkey : o.byKey[key]? with
  | none =>
      rw [hkey] at hn
      exact hl key n hn
  | some m =>
      rw [hkey] at hn
      cases hn
      exact Nat.lt_of_lt_of_le (ho key m hkey) (Nat.le_add_left _ _)

theorem seen_empty : Seen {} := by
  intro key n hn
  exact absurd hn (by simp)

theorem seen_laneLog (polls : List Poll) (keep : Option ProbeRecord → Bool) (since : ℤ) :
    Seen (Lanes.laneLog (polls.map (sampleOf keep)) since fun s => s.log.trustedLane) := by
  have lines (rs : List AuditRecord) (l : LaneLog) (h : Seen l) : Seen (rs.foldl LaneLog.add l) := by
    induction rs generalizing l with
    | nil => exact h
    | cons r rs ih => exact ih _ (seen_add h r)
  have samples (ss : List Sample) (hss : ∀ s ∈ ss, Seen s.log.trustedLane) (l : LaneLog)
      (h : Seen l) : Seen (ss.foldl (fun acc s => acc.merge s.log.trustedLane) l) := by
    induction ss generalizing l with
    | nil => exact h
    | cons s ss ih =>
        exact ih (fun t ht => hss t (List.mem_cons_of_mem _ ht)) _
          (seen_merge h (hss s List.mem_cons_self))
  apply samples _ _ _ seen_empty
  intro s hs
  obtain ⟨p, -, rfl⟩ := List.mem_map.mp (List.mem_of_mem_filter hs)
  exact lines _ _ seen_empty

/-- The rows of the keys of a log, but for the row without a key. -/
def keyedRows (l : LaneLog) : List KeyCount := (rankedKeys l).filter fun k => k.key ≠ noKey

section Keys

variable {l : LaneLog}

theorem mem_rankedKeys {k : KeyCount} : k ∈ rankedKeys l ↔ l.byKey[k.key]? = some k.count := by
  rw [rankedKeys, List.mem_insertionSort, List.mem_map,
    ← Std.ExtTreeMap.mem_toList_iff_getElem?_eq_some]
  constructor
  · rintro ⟨e, he, rfl⟩
    exact he
  · intro h
    exact ⟨_, h, rfl⟩

theorem nodup_rankedKeys (l : LaneLog) : (rankedKeys l).Nodup := by
  rw [rankedKeys, (List.perm_insertionSort _ _).nodup_iff]
  apply List.Nodup.of_map KeyCount.key
  rw [List.map_map]
  have keys : l.byKey.toList.map (KeyCount.key ∘ fun e => ⟨e.1, e.2⟩) = l.byKey.keys :=
    Std.ExtTreeMap.map_fst_toList_eq_keys
  rw [keys]
  exact Std.ExtTreeMap.nodup_keys

theorem sorted_rankedKeys (l : LaneLog) : (rankedKeys l).Pairwise KeyCount.busiest :=
  List.pairwise_insertionSort _ _

theorem sorted_keyedRows (l : LaneLog) : (keyedRows l).Pairwise KeyCount.busiest :=
  (sorted_rankedKeys l).filter _

theorem nodup_keyedRows (l : LaneLog) : (keyedRows l).Nodup := (nodup_rankedKeys l).filter _

theorem mem_keyedRows {k : KeyCount} :
    k ∈ keyedRows l ↔ l.byKey[k.key]? = some k.count ∧ k.key ≠ noKey := by
  rw [keyedRows, List.mem_filter, mem_rankedKeys, decide_eq_true_eq]

/-- The rows of a log are those with a key and the row without one in its place. -/
theorem rankedKeys_eq (seen : Seen l) :
    rankedKeys l = withNoKey (keyedRows l) ((l.byKey[noKey]?).getD 0) := by
  have nodup := nodup_keyedRows l
  apply List.Perm.eq_of_pairwise' (r := KeyCount.busiest) (sorted_rankedKeys l)
  · unfold withNoKey
    split
    · exact (sorted_keyedRows l).orderedInsert _ _
    · exact sorted_keyedRows l
  · cases hkey : l.byKey[noKey]? with
    | none =>
        rw [List.perm_ext_iff_of_nodup (nodup_rankedKeys l) (by simpa [withNoKey] using nodup)]
        intro k
        rw [mem_rankedKeys]
        change _ ↔ k ∈ keyedRows l
        rw [mem_keyedRows, iff_self_and]
        intro hk h
        rw [h, hkey] at hk
        cases hk
    | some n =>
        have pos := seen noKey n hkey
        have perm := List.perm_orderedInsert KeyCount.busiest ⟨noKey, n⟩ (keyedRows l)
        simp only [withNoKey, Option.getD_some, if_pos pos]
        apply List.Perm.trans _ perm.symm
        have fresh : (⟨noKey, n⟩ : KeyCount) ∉ keyedRows l := by
          rw [mem_keyedRows]
          simp
        rw [List.perm_ext_iff_of_nodup (nodup_rankedKeys l) (List.nodup_cons.mpr ⟨fresh, nodup⟩)]
        intro k
        rw [mem_rankedKeys, List.mem_cons, mem_keyedRows]
        by_cases h : k.key = noKey
        · obtain ⟨key, count⟩ := k
          obtain rfl : key = noKey := h
          simp [hkey, eq_comm]
        · have other : k ≠ ⟨noKey, n⟩ := fun heq => h (congrArg KeyCount.key heq)
          simp [h, other]

/-- A key that counts the same in two logs is in both or in neither. -/
theorem getElem?_eq_of_getD {o : LaneLog} (hl : Seen l) (ho : Seen o) {key : String}
    (h : (l.byKey[key]?).getD 0 = (o.byKey[key]?).getD 0) : l.byKey[key]? = o.byKey[key]? := by
  cases hkl : l.byKey[key]? with
  | none =>
      cases hko : o.byKey[key]? with
      | none => rfl
      | some n =>
          have pos := ho key n hko
          simp only [hkl, hko, Option.getD_none, Option.getD_some] at h
          omega
  | some m =>
      have pos := hl key m hkl
      cases hko : o.byKey[key]? with
      | none =>
          simp only [hkl, hko, Option.getD_none, Option.getD_some] at h
          omega
      | some n =>
          simp only [hkl, hko, Option.getD_some] at h
          rw [h]

/-- Logs that agree but for the row without a key have the same other rows. -/
theorem keyedRows_congr {o : LaneLog} (h : ∀ key, key ≠ noKey → l.byKey[key]? = o.byKey[key]?) :
    keyedRows l = keyedRows o := by
  apply List.Perm.eq_of_pairwise' (r := KeyCount.busiest) (sorted_keyedRows l) (sorted_keyedRows o)
  rw [List.perm_ext_iff_of_nodup (nodup_keyedRows l) (nodup_keyedRows o)]
  intro k
  rw [mem_keyedRows, mem_keyedRows]
  apply and_congr_left
  intro hk
  rw [h k.key hk]

end Keys

/-! ## The accounts of a lane -/

/-- The trusted lane of some samples. -/
def trusted (h : History) (now : ℤ) (running queued : ℚ) (adm : Option LaneAdmission) : LaneStatus :=
  laneStatus h now running queued adm fun s => s.log.trustedLane

/-- What a lane shows that is not the gateway's own count of what it let through, nor the monitor's
share. -/
def ofLog (lane : LaneStatus) : LaneStatus :=
  { lane with topKeys60m := lane.topKeys60m.take 5, admitted := 0, probes := {} }

/-- What is asked of a lane that the monitor was taken out of. -/
structure KeepsAccounts (lane : LaneStatus) (probes : List ProbeRecord) (now : ℤ)
    (after : LaneStatus) : Prop where
  answers : answers after.codes10m ≤ after.requests10m
  requests : after.requests10m + after.probes.requests10m = lane.requests10m
  admitted : after.admitted + after.probes.admitted = lane.admitted
  keys : counted after.topKeys60m + after.probes.requests60m = counted lane.topKeys60m
  untouched : ∀ key, key ≠ noKey → countOf after.topKeys60m key = countOf lane.topKeys60m key
  others : ∀ (polls : List Poll) (running queued : ℚ) (adm : Option LaneAdmission),
    OwnLines polls probes now → lane = trusted (allLines polls) now running queued adm →
      ofLog after = ofLog (trusted (otherLines polls) now running queued adm)

/-- No more is taken out of the requests than was there to take: either the probes cover the
answers of every class, or what they ask beyond the answers, of a class or of none, is in the
requests that were not answered so. -/
def NotOverdrawn (lane : LaneStatus) (probes : List ProbeRecord) (now : ℤ) : Prop :=
  (lane.codes10m.c2xx ≤ answered now probes 2 ∧ lane.codes10m.c4xx ≤ answered now probes 4 ∧
      lane.codes10m.c5xx ≤ answered now probes 5) ∨
    (answered now probes 2 - lane.codes10m.c2xx) + (answered now probes 4 - lane.codes10m.c4xx) +
        (answered now probes 5 - lane.codes10m.c5xx) + unclassed now probes ≤
      lane.requests10m - answers lane.codes10m

/-- What is left where every probe has its own line is the lane of the other lines. -/
theorem ofLog_eq {polls : List Poll} {probes : List ProbeRecord} {now : ℤ} {running queued : ℚ}
    {adm : Option LaneAdmission} (owned : OwnLines polls probes now) {admitted : ℕ}
    {after : LaneStatus}
    (h : subtractProbes (trusted (allLines polls) now running queued adm) probes now admitted =
      some after) :
    ofLog after = ofLog (trusted (otherLines polls) now running queued adm) := by
  obtain ⟨taken, lowered, hlowered, -, -⟩ := lowerNoKey_spec (logged now historySecs probes).length
    (trusted (allLines polls) now running queued adm).topKeys60m
  rw [subtractProbes_eq _ _ _ _ hlowered] at h
  obtain rfl := Option.some.inj h
  have requests := requests_split owned
  have class2 := class_split owned 2
  have class4 := class_split owned 4
  have class5 := class_split owned 5
  have key := key_split owned
  -- the hour's rows
  have seenAll := seen_laneLog polls (fun _ => true) (now - historySecs)
  have seenOthers := seen_laneLog polls Option.isNone (now - historySecs)
  change Seen (Lanes.laneLog (allLines polls) _ _) at seenAll
  change Seen (Lanes.laneLog (otherLines polls) _ _) at seenOthers
  change lowerNoKey _ ((rankedKeys (Lanes.laneLog (allLines polls) (now - historySecs)
    fun s => s.log.trustedLane)).take 6) = _ at hlowered
  have rows : (ranked lowered).take 5 = ((rankedKeys (Lanes.laneLog (otherLines polls)
      (now - historySecs) fun s => s.log.trustedLane)).take 6).take 5 := by
    have same : keyedRows (Lanes.laneLog (allLines polls) (now - historySecs)
          fun s => s.log.trustedLane) =
        keyedRows (Lanes.laneLog (otherLines polls) (now - historySecs)
          fun s => s.log.trustedLane) := by
      apply keyedRows_congr
      intro k hk
      have hsame := key k
      rw [if_neg hk, Nat.add_zero] at hsame
      exact getElem?_eq_of_getD seenAll seenOthers hsame
    rw [rankedKeys_eq seenAll, key noKey, if_pos rfl, same] at hlowered
    rw [List.take_take, rankedKeys_eq seenOthers]
    exact take_ranked_lowered (sorted_keyedRows _) (fun k hk => (mem_keyedRows.mp hk).2)
      (fun k hk => seenOthers _ _ (mem_keyedRows.mp hk).1) _ _ hlowered
  have left (a b c : ℕ) (h : a = b + c) : a - c = b := by omega
  simp only [ofLog, trusted, laneStatus, classes, left _ _ _ requests, left _ _ _ class2,
    left _ _ _ class4, left _ _ _ class5, rows]

/-- Whatever probes there are, taking them out keeps the accounts of the lane exactly where they are
not overdrawn. -/
theorem keepsAccounts_iff (lane : LaneStatus) (probes : List ProbeRecord) (now : ℤ) (admitted : ℕ)
    (answered : answers lane.codes10m ≤ lane.requests10m) :
    (∃ after, subtractProbes lane probes now admitted = some after ∧
        KeepsAccounts lane probes now after) ↔
      NotOverdrawn lane probes now := by
  obtain ⟨taken, lowered, hlowered, hsum, hothers⟩ := lowerNoKey_spec
    (logged now historySecs probes).length lane.topKeys60m
  have result := subtractProbes_eq lane probes now admitted hlowered
  have whole := length_logged now probes
  constructor
  · rintro ⟨after, hafter, kept⟩
    rw [result] at hafter
    obtain rfl := Option.some.inj hafter
    have few := kept.answers
    unfold NotOverdrawn
    simp only [answers] at few answered ⊢
    omega
  · intro enough
    refine ⟨_, result, ?_⟩
    constructor
    case answers =>
      unfold NotOverdrawn at enough
      simp only [answers] at enough answered ⊢
      omega
    case requests =>
      simp only
      omega
    case admitted =>
      simp only
      omega
    case keys => rw [counted_ranked, hsum]
    case untouched =>
      intro key hkey
      rw [countOf_ranked, hothers key hkey]
    case others =>
      rintro polls running queued adm owned rfl
      exact ofLog_eq owned result

/-- A probe that the gateway answered with a status. -/
def probeAt (ts : ℤ) (code : ℕ) : ProbeRecord :=
  { ts := ts, status := "error", httpStatus := some code }

theorem keepsAccounts_iff_one :
    (∃ after, subtractProbes { requests10m := 3, codes10m := { c2xx := 2 } } [probeAt 0 200] 10 1 =
        some after ∧
        KeepsAccounts { requests10m := 3, codes10m := { c2xx := 2 } } [probeAt 0 200] 10 after) ↔
      NotOverdrawn { requests10m := 3, codes10m := { c2xx := 2 } } [probeAt 0 200] 10 :=
  keepsAccounts_iff { requests10m := 3, codes10m := { c2xx := 2 } } [probeAt 0 200] 10 1 (by decide)

/-- One answer of somebody else, and a probe whose line is not there: the lane shows more answers
than requests. -/
theorem probe_without_line :
    ¬ ∀ (lane : LaneStatus) (probes : List ProbeRecord) (now : ℤ) (admitted : ℕ),
      answers lane.codes10m ≤ lane.requests10m →
        ∃ after, subtractProbes lane probes now admitted = some after ∧
          KeepsAccounts lane probes now after := by
  intro claim
  obtain ⟨after, hafter, kept⟩ := claim { requests10m := 1, codes10m := { c2xx := 1 } }
    [probeAt 0 500] 10 0 (by decide)
  have result : subtractProbes { requests10m := 1, codes10m := { c2xx := 1 } } [probeAt 0 500] 10 0 =
      some { requests10m := 0, codes10m := { c2xx := 1 }, probes := { requests10m := 1 } } := by
    decide
  rw [result] at hafter
  obtain rfl := Option.some.inj hafter
  exact absurd kept.answers (by decide)

end Lss.Analysis.MonitorShare
