import Lss.Model.HistStore

/-!
# Stored windows read back

The text of bucket counts is read back as the counts, whatever runs of empty buckets they hold,
and after any run of writes the store lists, for every window that saw requests, what was last
emitted for it. How often the histogram's own count was raised is not stored: what is read back
counts the observations in the buckets.
-/

set_option autoImplicit false

namespace Lss.Analysis.HistStores

open Lss.Model Lss.Library

/-! ## Numbers -/

theorem isDigit_toDigits {n : ℕ} : ∀ c ∈ Nat.toDigits 10 n, c.isDigit := fun _ hc =>
  Nat.isDigit_of_mem_toDigits (by decide) (by decide) hc

theorem not_mem_toDigits {c : Char} (hc : c.isDigit = false) (n : ℕ) : c ∉ Nat.toDigits 10 n := by
  intro hm
  rw [isDigit_toDigits c hm] at hc
  cases hc

theorem head_toDigits_ne {c : Char} (hc : c.isDigit = false) (n : ℕ) :
    (Nat.toDigits 10 n).head? ≠ some c := by
  intro he
  exact not_mem_toDigits hc n (List.mem_of_mem_head? he)

theorem readIndex_toDigits (i : ℕ) : readIndex (Nat.toDigits 10 i) = some i := by
  have digits : (Nat.toDigits 10 i).all Char.isDigit := List.all_eq_true.mpr isDigit_toDigits
  unfold readIndex
  rw [if_neg (head_toDigits_ne (by decide) i)]
  dsimp only
  rw [if_neg (by simp [digits, Nat.toDigits_ne_nil]), Nat.ofDigitChars_ten_toDigits]

/-- A whole number without decimals is written as its digits. -/
theorem fixedDecimals_natCast (n : ℕ) :
    fixedDecimals 0 (n : ℚ) = String.ofList (Nat.toDigits 10 n) := by
  have round : roundHalfEven ((n : ℚ) * 10 ^ 0) = n := by
    unfold roundHalfEven
    rw [pow_zero, mul_one, Int.floor_natCast]
    dsimp only
    rw [Int.cast_natCast, sub_self, if_pos (by norm_num)]
  have text : toString (n : ℤ).natAbs = String.ofList (Nat.toDigits 10 n) := by
    rw [Int.natAbs_natCast, Nat.toString_eq_ofList_toDigits]
  have short : 0 + 1 - (Nat.toDigits 10 n).length = 0 := by
    have : 0 < (Nat.toDigits 10 n).length := Nat.length_toDigits_pos
    omega
  unfold fixedDecimals
  rw [round]
  dsimp only
  rw [if_pos rfl, text, String.length_ofList, short, if_neg (by omega)]
  simp

theorem toLower_of_isDigit {c : Char} (hc : c.isDigit) : c.toLower = c := by
  have digit : c.val ≥ 48 ∧ c.val ≤ 57 := by
    simp only [Char.isDigit, Bool.and_eq_true, decide_eq_true_eq] at hc
    exact hc
  unfold Char.toLower
  rw [dif_neg]
  rintro ⟨hge, -⟩
  exact absurd (UInt32.le_trans hge digit.2) (by decide)

theorem lower_toDigits (n : ℕ) : Lines.lower (Nat.toDigits 10 n) = Nat.toDigits 10 n := by
  have same : (Nat.toDigits 10 n).map Char.toLower = (Nat.toDigits 10 n).map id :=
    List.map_congr_left fun c hc => toLower_of_isDigit (isDigit_toDigits c hc)
  unfold Lines.lower
  rw [same, List.map_id]

theorem toDigits_ne {n : ℕ} {text : List Char} (h : ∃ c ∈ text, c.isDigit = false) :
    Nat.toDigits 10 n ≠ text := by
  obtain ⟨c, hc, hd⟩ := h
  intro he
  exact not_mem_toDigits hd n (he ▸ hc)

theorem parseDecimal_toDigits (n : ℕ) : parseDecimal (Nat.toDigits 10 n) = some (n : ℚ) := by
  have digits := isDigit_toDigits (n := n)
  unfold parseDecimal
  rw [List.takeWhile_eq_self_iff.mpr digits, List.dropWhile_eq_nil_iff.mpr digits]
  dsimp only
  rw [if_neg Nat.toDigits_ne_nil, Nat.ofDigitChars_ten_toDigits]

theorem readFinite_toDigits (n : ℕ) : readFinite (Nat.toDigits 10 n) = some (n : ℚ) := by
  have noE : ∀ c ∈ Nat.toDigits 10 n, decide (c.toLower ≠ 'e') = true := by
    intro c hc
    rw [toLower_of_isDigit (isDigit_toDigits c hc), decide_eq_true_eq]
    intro he
    exact not_mem_toDigits (by decide) n (he ▸ hc)
  have minus : (Nat.toDigits 10 n).head? ≠ some '-' := head_toDigits_ne (by decide) n
  have plus : (Nat.toDigits 10 n).head? ≠ some '+' := head_toDigits_ne (by decide) n
  have double : parseDouble (Nat.toDigits 10 n) = some (.finite n) := by
    unfold parseDouble
    dsimp only
    rw [if_neg (not_or.mpr ⟨minus, plus⟩), lower_toDigits, if_neg, if_neg,
      List.takeWhile_eq_self_iff.mpr noE, List.dropWhile_eq_nil_iff.mpr noE,
      parseDecimal_toDigits]
    · show some (Double.finite (if _ then -(n : ℚ) else n)) = _
      rw [if_neg minus]
    · exact toDigits_ne (by decide)
    · rintro (h | h)
      · exact toDigits_ne (by decide) h
      · exact toDigits_ne (by decide) h
  unfold readFinite
  rw [double]

/-! ## Counts -/

theorem takeWhile_colon (i : ℕ) (rest : List Char) :
    (Nat.toDigits 10 i ++ ':' :: rest).takeWhile (· ≠ ':') = Nat.toDigits 10 i ∧
    (Nat.toDigits 10 i ++ ':' :: rest).dropWhile (· ≠ ':') = ':' :: rest := by
  have noColon : ∀ c ∈ Nat.toDigits 10 i, decide (c ≠ ':') = true := by
    intro c hc
    rw [decide_eq_true_eq]
    intro he
    exact not_mem_toDigits (by decide) i (he ▸ hc)
  rw [List.takeWhile_append_of_pos noColon, List.dropWhile_append_of_pos noColon]
  simp

theorem addCount_encodeCount (out : List ℚ) (n i : ℕ) :
    HistAccum.addCount out (HistAccum.encodeCount n i) = out.modify i (· + (n : ℚ)) := by
  unfold HistAccum.addCount HistAccum.encodeCount
  rw [fixedDecimals_natCast, String.toList_ofList, (takeWhile_colon i _).1,
    (takeWhile_colon i _).2]
  dsimp only
  rw [readIndex_toDigits, readFinite_toDigits]

theorem comma_not_mem_encodeCount (n i : ℕ) : ',' ∉ HistAccum.encodeCount n i := by
  unfold HistAccum.encodeCount
  rw [fixedDecimals_natCast, String.toList_ofList, List.mem_append, List.mem_cons]
  rintro (h | h | h)
  · exact not_mem_toDigits (by decide) i h
  · exact absurd h (by decide)
  · exact not_mem_toDigits (by decide) n h

/-- The pairs of the buckets from the `k`-th on, as they are written. -/
def pairs (k : ℕ) (counts : List ℕ) : List (List Char) :=
  (((counts.map ((↑) : ℕ → ℚ)).zipIdx k).filter fun p => 0 < p.1).map fun p =>
    HistAccum.encodeCount p.1 p.2

theorem pairs_cons (k c : ℕ) (counts : List ℕ) :
    pairs k (c :: counts) =
      (if c = 0 then [] else [HistAccum.encodeCount c k]) ++ pairs (k + 1) counts := by
  unfold pairs
  rw [List.map_cons, List.zipIdx_cons, List.filter_cons]
  by_cases h : c = 0
  · rw [if_pos h, if_neg (by simp [h])]
    rfl
  · have positive : (0 : ℚ) < (c : ℚ) := Nat.cast_pos.mpr (Nat.pos_of_ne_zero h)
    rw [if_neg h, if_pos (decide_eq_true positive)]
    rfl

theorem modify_append {α : Type} (before : List α) (c : α) (rest : List α) (f : α → α) :
    (before ++ c :: rest).modify before.length f = before ++ f c :: rest := by
  induction before with
  | nil => rfl
  | cons b before ih => rw [List.cons_append, List.length_cons, List.modify_succ_cons, ih]; rfl

/-- Read in front of empty buckets, the pairs fill them one after the other. A bucket that saw
nothing is not written and stays empty. -/
theorem foldl_pairs (before : List ℚ) (counts : List ℕ) :
    (pairs before.length counts).foldl HistAccum.addCount
      (before ++ List.replicate counts.length 0) = before ++ counts.map ((↑) : ℕ → ℚ) := by
  induction counts generalizing before with
  | nil => rfl
  | cons c counts ih =>
      have next := ih (before ++ [(c : ℚ)])
      rw [List.length_append, List.length_singleton, List.append_assoc, List.append_assoc,
        List.singleton_append, List.singleton_append] at next
      rw [pairs_cons, List.foldl_append, List.map_cons, ← next]
      congr 1
      rw [List.length_cons, List.replicate_succ]
      by_cases h : c = 0
      · rw [if_pos h, h, Nat.cast_zero]
        rfl
      · rw [if_neg h, List.foldl_cons, List.foldl_nil, addCount_encodeCount, modify_append,
          zero_add]

/-- Whatever the buckets hold, their text is read back as it was. -/
theorem decodeCounts_encodeCounts (h : HistAccum) (counts : List ℕ)
    (whole : h.counts = counts.map ((↑) : ℕ → ℚ)) :
    HistAccum.decodeCounts h.encodeCounts counts.length = h.counts := by
  have text : h.encodeCounts = String.ofList ([','].intercalate (pairs 0 counts)) := by
    unfold HistAccum.encodeCounts pairs
    rw [whole]
  have filled := foldl_pairs [] counts
  rw [List.length_nil, List.nil_append, List.nil_append] at filled
  unfold HistAccum.decodeCounts
  rw [text, String.toList_ofList, whole]
  by_cases empty : pairs 0 counts = []
  · rw [empty] at filled ⊢
    exact filled
  · rw [List.splitOn_intercalate _ _ empty, filled]
    intro part hpart
    obtain ⟨p, hp, rfl⟩ := List.mem_map.mp hpart
    obtain ⟨c, -, hc⟩ := List.mem_map.mp (List.fst_mem_of_mem_zipIdx (List.mem_filter.mp hp).1)
    rw [← hc]
    exact comma_not_mem_encodeCount c p.2

/-! ## Bounds -/

variable (display : ℚ → String)

/-- What is relied on of the text of a bound: it reads back, and holds no comma. -/
def Readable (b : ℚ) : Prop :=
  readFinite (display b).toList = some b ∧ ',' ∉ (display b).toList

variable {display}

theorem decodeBounds_encodeBounds {le : List ℚ} (readable : ∀ b ∈ le, Readable display b) :
    decodeBounds (encodeBounds display le) = le := by
  unfold decodeBounds encodeBounds
  rw [String.toList_ofList]
  by_cases empty : le = []
  · have none : readFinite [] = none := by decide +kernel
    rw [empty, List.map_nil, List.intercalate_nil, List.splitOn_nil, List.filterMap_cons_none none]
    rfl
  · rw [List.splitOn_intercalate _ _ fun h => empty (List.map_eq_nil_iff.mp h)]
    · rw [List.filterMap_map]
      have same : ∀ b ∈ le, (readFinite ∘ fun b => (display b).toList) b = some b :=
        fun b hb => (readable b hb).1
      rw [List.filterMap_congr same, List.filterMap_some]
    · intro text htext
      obtain ⟨b, hb, rfl⟩ := List.mem_map.mp htext
      exact (readable b hb).2

/-! ## Rows -/

/-- A histogram of a window, when it saw requests. -/
structure Emission where
  res : ℤ
  metric : String
  ts : ℤ
  acc : HistAccum
deriving DecidableEq

def Emission.key (e : Emission) : ℤ × String × ℤ := (e.res, e.metric, e.ts)

/-- What is emitted of one histogram of a window. -/
def emission (w : ClosedWindow) (p : String × HistAccum) : Option Emission :=
  if p.2.isEmpty then none else some ⟨w.res, p.1, w.ts, p.2⟩

/-- What some windows emit, in the order in which they are written. -/
def emissions (ws : List ClosedWindow) : List Emission :=
  ws.flatMap fun w => (histMetrics.zip w.accs.toList).filterMap (emission w)

variable (display)

/-- An emission as the table of windows holds it. -/
def row (bounds : List String) (e : Emission) : HistRow :=
  ⟨e.res, e.metric, e.ts, bounds.idxOf (encodeBounds display e.acc.le), e.acc.encodeCounts,
    e.acc.sum⟩

/-- The two tables hold some emissions. -/
structure Holds (db : HistDb) (es : List Emission) : Prop where
  rows : db.hist = es.map (row display db.histBounds)
  bounds : ∀ e ∈ es, encodeBounds display e.acc.le ∈ db.histBounds

variable {display}

/-- The rows of bounds that there are keep their ids when others come after them. -/
theorem Holds.grow {db : HistDb} {es : List Emission} (h : Holds display db es)
    (more : List String) : Holds display { db with histBounds := db.histBounds ++ more } es where
  rows := by
    rw [h.rows]
    apply List.map_congr_left
    intro e he
    unfold row
    rw [List.idxOf_append_of_mem (h.bounds e he)]
  bounds e he := List.mem_append_left _ (h.bounds e he)

/-- One histogram is put in the place of the row with its key. -/
theorem Holds.writeHist {db : HistDb} {es : List Emission} (h : Holds display db es)
    (w : ClosedWindow) (p : String × HistAccum) :
    Holds display (HistDb.writeHist display w db p)
      ((emission w p).toList.foldl (Table.put Emission.key) es) := by
  unfold HistDb.writeHist emission
  split
  · exact h
  · obtain ⟨more, bounds⟩ : ∃ more : List String,
        (if encodeBounds display p.2.le ∈ db.histBounds then db.histBounds
          else db.histBounds ++ [encodeBounds display p.2.le]) = db.histBounds ++ more ∧
        encodeBounds display p.2.le ∈ db.histBounds ++ more := by
      split
      · rename_i hm
        exact ⟨[], by simp, by simpa using hm⟩
      · exact ⟨[encodeBounds display p.2.le], rfl, by simp⟩
    have grown := h.grow more
    dsimp only
    rw [bounds.1]
    constructor
    · dsimp only
      have put := Table.put_map Emission.key HistRow.key (row display (db.histBounds ++ more))
        (fun _ => rfl) es ⟨w.res, p.1, w.ts, p.2⟩
      rw [Option.toList_some, List.foldl_cons, List.foldl_nil, ← put, ← grown.rows]
      rfl
    · intro e he
      rcases Table.mem_put.mp he with rfl | ⟨he, -⟩
      · exact bounds.2
      · exact grown.bounds e he

theorem Holds.writeHistWindow {db : HistDb} {es : List Emission} (h : Holds display db es)
    (w : ClosedWindow) :
    Holds display (db.writeHistWindow display w)
      (((histMetrics.zip w.accs.toList).filterMap (emission w)).foldl
        (Table.put Emission.key) es) := by
  unfold HistDb.writeHistWindow
  generalize histMetrics.zip w.accs.toList = hists
  induction hists generalizing db es with
  | nil => exact h
  | cons p hists ih =>
      have step := ih (h.writeHist w p)
      rw [List.foldl_cons]
      cases hp : emission w p with
      | none =>
          rw [hp] at step
          rw [List.filterMap_cons_none hp]
          exact step
      | some e =>
          rw [hp] at step
          rw [List.filterMap_cons_some hp]
          exact step

/-- After a run of writes the tables hold, of each key, what was emitted last. -/
theorem holds_emissions (ws : List ClosedWindow) :
    Holds display (ws.foldl (HistDb.writeHistWindow display) {})
      ((emissions ws).foldl (Table.put Emission.key) []) := by
  induction ws using List.reverseRecOn with
  | nil => exact ⟨rfl, fun e he => nomatch he⟩
  | append_singleton ws w ih =>
      unfold emissions at ih ⊢
      rw [List.foldl_concat, List.flatMap_append, List.foldl_append, List.flatMap_singleton]
      exact ih.writeHistWindow w

/-! ## Reading back -/

variable (display)

/-- An accumulator of the documented shape: whole counts, one more than there are bounds. -/
structure Storable (acc : HistAccum) : Prop where
  whole : ∃ counts : List ℕ, acc.counts = counts.map ((↑) : ℕ → ℚ)
  length : acc.counts.length = acc.le.length + 1
  readable : ∀ b ∈ acc.le, Readable display b

variable {display}

/-- A row reads back as what was emitted, its count being that of its buckets. -/
theorem readHist_row {db : HistDb} {e : Emission} (storable : Storable display e.acc)
    (there : encodeBounds display e.acc.le ∈ db.histBounds) :
    db.readHist (row display db.histBounds e) = (e.ts, { e.acc with count := e.acc.total }) := by
  obtain ⟨counts, whole⟩ := storable.whole
  have length : e.acc.le.length + 1 = counts.length := by
    rw [← storable.length, whole, List.length_map]
  have le : decodeBounds (db.histBounds[db.histBounds.idxOf
      (encodeBounds display e.acc.le)]?.getD "") = e.acc.le := by
    rw [List.getElem?_idxOf there, Option.getD_some, decodeBounds_encodeBounds storable.readable]
  unfold HistDb.readHist row
  dsimp only
  rw [le, length, decodeCounts_encodeCounts e.acc counts whole]
  rfl

/-- The listing of a store that holds some emissions. -/
theorem Holds.histRows {db : HistDb} {es : List Emission} (h : Holds display db es)
    (storable : ∀ e ∈ es, Storable display e.acc) (res : ℤ) (metric : String)
    (since before : ℤ) :
    db.histRows res metric since before =
      ((es.filter fun e => e.res = res ∧ e.metric = metric ∧ since ≤ e.ts ∧ e.ts < before).mergeSort
        fun e f => e.ts ≤ f.ts).map fun e => (e.ts, { e.acc with count := e.acc.total }) := by
  unfold HistDb.histRows
  dsimp only
  rw [h.rows, List.filter_map, ← List.map_mergeSort, List.map_map]
  · apply List.map_congr_left
    intro e he
    have he' : e ∈ es := (List.mem_filter.mp (List.mem_mergeSort.mp he)).1
    exact readHist_row (storable e he') (h.bounds e he')
  · exact fun _ _ _ _ => rfl

/-- What is emitted saw requests in some window. -/
theorem mem_emissions {ws : List ClosedWindow} {e : Emission} (h : e ∈ emissions ws) :
    ∃ w ∈ ws, e.acc ∈ w.accs.toList ∧ e.acc.isEmpty = false := by
  obtain ⟨w, hw, he⟩ := List.mem_flatMap.mp h
  obtain ⟨p, hp, he⟩ := List.mem_filterMap.mp he
  unfold emission at he
  split at he
  · cases he
  · rename_i saw
    cases he
    exact ⟨w, hw, (List.of_mem_zip hp).2, Bool.eq_false_of_not_eq_true saw⟩

/-- What was emitted last for its histogram and its window. -/
def LastEmitted (ws : List ClosedWindow) (e : Emission) : Prop :=
  ∃ before after, emissions ws = before ++ e :: after ∧ ∀ f ∈ after, f.key ≠ e.key

/-- The text of bucket counts is read back as the counts. After any run of writes of windows of
the documented shape, the store lists for a histogram, in the order of their starts, exactly the
windows that were emitted last: bounds, counts and sum as they were, and a count that is that of
the buckets. -/
theorem window_reads_back (display : ℚ → String) (ws : List ClosedWindow)
    (storable : ∀ w ∈ ws, ∀ acc ∈ w.accs.toList, acc.isEmpty = false → Storable display acc) :
    (∀ v : List ℕ, HistAccum.decodeCounts
      (HistAccum.encodeCounts { counts := v.map ((↑) : ℕ → ℚ) }) v.length =
        v.map ((↑) : ℕ → ℚ)) ∧
    ∀ (res : ℤ) (metric : String) (since before : ℤ),
      let rows := (ws.foldl (HistDb.writeHistWindow display) {}).histRows res metric since before
      rows.Pairwise (fun r s => r.1 < s.1) ∧
      ∀ ts acc, (ts, acc) ∈ rows ↔ since ≤ ts ∧ ts < before ∧
        ∃ e, LastEmitted ws ⟨res, metric, ts, e⟩ ∧ acc = { e with count := e.total } := by
  refine ⟨fun v => decodeCounts_encodeCounts _ v rfl, ?_⟩
  intro res metric since before
  dsimp only
  have held : ∀ e ∈ (emissions ws).foldl (Table.put Emission.key) [], LastEmitted ws e :=
    fun e he => Table.mem_foldl_put.mp he
  have kept : ∀ e ∈ (emissions ws).foldl (Table.put Emission.key) [], Storable display e.acc := by
    intro e he
    obtain ⟨earlier, later, split, -⟩ := held e he
    have emitted : e ∈ emissions ws := by
      rw [split]
      exact List.mem_append_right _ List.mem_cons_self
    obtain ⟨w, hw, hacc, saw⟩ := mem_emissions emitted
    exact storable w hw e.acc hacc saw
  rw [(holds_emissions ws).histRows kept]
  constructor
  · rw [List.pairwise_map]
    show List.Pairwise (fun e f : Emission => e.ts < f.ts) _
    apply Table.pairwise_lt_mergeSort
    -- within one histogram and one resolution the key of a row is its start
    have keyed : Table.Keyed Emission.key ((emissions ws).foldl (Table.put Emission.key) []) :=
      Table.Keyed.foldl_put List.Pairwise.nil _
    rw [List.pairwise_filter]
    apply keyed.imp
    intro e f apart he hf same
    rw [decide_eq_true_eq] at he hf
    apply apart
    unfold Emission.key
    rw [he.1, he.2.1, hf.1, hf.2.1, same]
  · intro ts acc
    rw [List.mem_map]
    constructor
    · rintro ⟨e, he, eq⟩
      obtain ⟨there, sel⟩ := List.mem_filter.mp (List.mem_mergeSort.mp he)
      obtain ⟨rfl, rfl, hsince, hbefore⟩ := of_decide_eq_true sel
      cases eq
      exact ⟨hsince, hbefore, e.acc, held e there, rfl⟩
    · rintro ⟨hsince, hbefore, e, last, rfl⟩
      refine ⟨⟨res, metric, ts, e⟩, ?_, rfl⟩
      rw [List.mem_mergeSort, List.mem_filter]
      exact ⟨Table.mem_foldl_put.mpr last, decide_eq_true ⟨rfl, rfl, hsince, hbefore⟩⟩

/-! ## A window whose count came late -/

/-- Two scrapes of an engine whose count is a scrape behind its buckets. -/
def quietScrape : HistSet :=
  #v[some { le := [1 / 2, 1, 5], cum := [0, 0, 0, 0] }, none, none, none, none, none]

@[inherit_doc quietScrape]
def busyScrape : HistSet :=
  #v[some { le := [1 / 2, 1, 5], cum := [0, 2, 2, 3], sum := 9, count := 2 }, none, none, none,
    none, none]

/-- The minute with both scrapes, as the collector emits it. -/
def lateWindow : ClosedWindow where
  res := 60
  ts := 0
  accs := #v[{ le := [1 / 2, 1, 5], counts := [0, 2, 0, 1], sum := 9, count := 2 }, {}, {}, {},
    {}, {}]

theorem storable_late : ∀ w ∈ [lateWindow], ∀ acc ∈ w.accs.toList, acc.isEmpty = false →
    Storable F64.display acc := by
  have all : ∀ acc ∈ lateWindow.accs.toList, acc.isEmpty = false →
      acc = lateWindow.accs.get 0 := by decide +kernel
  intro w hw acc hacc saw
  rw [List.mem_singleton.mp hw] at hacc
  rw [all acc hacc saw]
  refine ⟨⟨[0, 2, 0, 1], by decide +kernel⟩, rfl, ?_⟩
  unfold Readable
  decide +kernel

theorem late_window_reads_back :
    ((0 : ℤ), ({ le := [1 / 2, 1, 5], counts := [0, 2, 0, 1], sum := 9, count := 3 } :
      HistAccum)) ∈
      ([lateWindow].foldl (HistDb.writeHistWindow F64.display) {}).histRows 60 "ttft" 0 600 := by
  have last : LastEmitted [lateWindow] ⟨60, "ttft", 0, lateWindow.accs.get 0⟩ :=
    ⟨[], [], by decide +kernel, fun f hf => nomatch hf⟩
  have rows := ((window_reads_back F64.display [lateWindow] storable_late).2 60 "ttft" 0 600).2
  exact (rows 0 _).mpr ⟨by decide, by decide, _, last, by decide +kernel⟩

/-- The window was emitted with a count of two and is read back with three. -/
theorem late_count_is_not_kept :
    ((((({} : LatencyTracker).observe 0 (some quietScrape)).1.observe 10
      (some busyScrape)).1.observe 60 none).2 = [lateWindow]) ∧
    (({} : HistDb).writeHistWindow F64.display lateWindow).histRows 60 "ttft" 0 600 ≠
      [((0 : ℤ), lateWindow.accs.get 0)] := by
  decide +kernel

end Lss.Analysis.HistStores
