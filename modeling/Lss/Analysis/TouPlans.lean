import Mathlib.Tactic.Ring
import Mathlib.Tactic.FieldSimp
import Mathlib.Tactic.Positivity
import Lss.Model.CostSetup

/-!
# A typed plan prices every hour as typed

The file that setup writes for a time-of-use plan is a document of sections; read back, it gives
for every hour, season and kind of day exactly one period, and that period has the price that was
typed for the hour, rounded to six decimals.
-/

set_option autoImplicit false

namespace Lss.Analysis.TouPlans

open Lss.Model Lss.Library

/-! ## Prices -/

/-- A price to six decimals. -/
def toSixDecimals (v : ℚ) : ℚ := roundHalfEven (v * 10 ^ 6) / 10 ^ 6

theorem roundHalfEven_nonneg {q : ℚ} (h : 0 ≤ q) : 0 ≤ roundHalfEven q := by
  have down : 0 ≤ ⌊q⌋ := Int.floor_nonneg.mpr h
  unfold roundHalfEven
  dsimp only
  split
  · exact down
  · split
    · omega
    · split
      · exact down
      · omega

/-- A number that is not zero does not begin with one. -/
theorem head_toDigits {n : ℕ} (h : 0 < n) : (Nat.toDigits 10 n).head? ≠ some '0' := by
  induction n using Nat.strong_induction_on with
  | _ n ih =>
      by_cases hn : n < 10
      · rw [Nat.toDigits_of_lt_base hn]
        intro he
        have digit : ∀ d < 10, 0 < d → d.digitChar ≠ '0' := by decide
        exact digit n hn h (Option.some.inj he)
      · have hn := Nat.le_of_not_lt hn
        rw [Nat.toDigits_of_base_le (by decide) hn]
        have rest := ih (n / 10) (Nat.div_lt_self h (by decide)) (Nat.div_pos hn (by decide))
        rw [List.head?_append]
        cases hd : (Nat.toDigits 10 (n / 10)).head? with
        | none => exact absurd (List.head?_eq_none_iff.mp hd) Nat.toDigits_ne_nil
        | some c =>
            rw [hd] at rest
            exact rest

/-- The digits of a number with six decimals, as they are written: the whole part, and exactly
six behind the point. -/
theorem sixDigits (m : ℕ) : ∃ whole fraction : List Char,
    (∀ v : ℚ, roundHalfEven (v * 10 ^ 6) = m →
      fixedDecimals 6 v = String.ofList (whole ++ '.' :: fraction)) ∧
    whole ≠ [] ∧ fraction.length = 6 ∧ (∀ c ∈ whole, c.isDigit) ∧ (∀ c ∈ fraction, c.isDigit) ∧
    (whole.head? = some '0' → whole.length = 1) ∧
    Nat.ofDigitChars 10 (whole ++ fraction) 0 = m := by
  have digits : ∀ c ∈ Nat.toDigits 10 m, c.isDigit := fun c hc =>
    Nat.isDigit_of_mem_toDigits (by decide) (by decide) hc
  have some_digit : 0 < (Nat.toDigits 10 m).length := Nat.length_toDigits_pos
  generalize hp : List.replicate (7 - (Nat.toDigits 10 m).length) '0' ++ Nat.toDigits 10 m = padded
  have padded_digits : ∀ c ∈ padded, c.isDigit := by
    intro c hc
    rw [← hp] at hc
    rcases List.mem_append.mp hc with hc | hc
    · rw [List.eq_of_mem_replicate hc]
      decide
    · exact digits c hc
  have length : 7 ≤ padded.length := by
    rw [← hp, List.length_append, List.length_replicate]
    omega
  refine ⟨padded.take (padded.length - 6), padded.drop (padded.length - 6), ?_, ?_, ?_, ?_, ?_, ?_,
    ?_⟩
  · intro v hv
    unfold fixedDecimals
    dsimp only
    rw [hv]
    have text : toString (m : ℤ).natAbs = String.ofList (Nat.toDigits 10 m) := by
      rw [Int.natAbs_natCast, Nat.toString_eq_ofList_toDigits]
    have all : String.ofList (List.replicate (7 - (toString (m : ℤ).natAbs).length) '0') ++
        toString (m : ℤ).natAbs = String.ofList padded := by
      rw [text, String.length_ofList, ← hp, String.ofList_append]
    rw [if_neg (by decide), if_neg (by omega), all, String.toList_ofList, String.length_ofList]
    apply String.toList_injective
    simp
  · intro he
    have := congrArg List.length he
    rw [List.length_take, List.length_nil] at this
    omega
  · rw [List.length_drop]
    omega
  · exact fun c hc => padded_digits c (List.mem_of_mem_take hc)
  · exact fun c hc => padded_digits c (List.mem_of_mem_drop hc)
  · intro hzero
    by_cases hlong : 7 ≤ (Nat.toDigits 10 m).length
    · -- no zero was put in front, and the number has none
      have same : padded = Nat.toDigits 10 m := by
        rw [← hp, Nat.sub_eq_zero_of_le hlong]
        rfl
      have positive : 0 < m := by
        rcases Nat.eq_zero_or_pos m with rfl | hm
        · rw [Nat.toDigits_zero] at hlong
          exact absurd hlong (by decide)
        · exact hm
      have head := head_toDigits positive
      rw [← same] at head
      have keep : (padded.take (padded.length - 6)).head? = padded.head? := by
        rw [List.head?_take, if_neg (by omega)]
      rw [keep] at hzero
      exact absurd hzero head
    · have seven : padded.length = 7 := by
        rw [← hp, List.length_append, List.length_replicate]
        omega
      rw [List.length_take, seven]
      rfl
  · rw [List.take_append_drop, ← hp, Nat.ofDigitChars_append, Nat.ofDigitChars_replicate_zero,
      Nat.mul_zero, Nat.ofDigitChars_ten_toDigits]

theorem ofDigitChars_zero (n : ℕ) : Nat.ofDigitChars 10 ['0'] n = 10 * n := by
  simp [Nat.ofDigitChars_cons]

/-- Zeros at the end of the decimals say nothing. -/
theorem ofDigitChars_trim (whole fraction : List Char) :
    (Nat.ofDigitChars 10 (whole ++ fraction) 0 : ℚ) / 10 ^ fraction.length =
      Nat.ofDigitChars 10 (whole ++ fraction.rdropWhile (· = '0')) 0 /
        10 ^ (fraction.rdropWhile (· = '0')).length := by
  induction fraction using List.reverseRecOn with
  | nil => rfl
  | append_singleton fraction c ih =>
      by_cases hc : c = '0'
      · subst hc
        rw [List.rdropWhile_concat_pos _ _ _ (by simp), ← ih, ← List.append_assoc,
          Nat.ofDigitChars_append, ofDigitChars_zero, List.length_append, List.length_singleton, pow_succ]
        push_cast
        field_simp
      · rw [List.rdropWhile_concat_neg _ _ _ (by simpa using hc)]

/-- A price is written as a decimal that reads as the price to six decimals. -/
theorem fmtRate_eq {v : ℚ} (h : 0 ≤ v) : ∃ whole fraction,
    (Toml.Value.decimal whole fraction).WellFormed ∧
      (Toml.Value.decimal whole fraction).data = .decimal (toSixDecimals v) ∧
      fmtRate (.finite v) = String.ofList (Toml.Value.decimal whole fraction).text := by
  have scaled : 0 ≤ v * 10 ^ 6 := mul_nonneg h (by positivity)
  obtain ⟨m, hm⟩ := Int.eq_ofNat_of_zero_le (roundHalfEven_nonneg scaled)
  obtain ⟨whole, fraction, written, hw, six, dw, df, front, value⟩ := sixDigits m
  have six_value : toSixDecimals v =
      Nat.ofDigitChars 10 (whole ++ fraction.rdropWhile (· = '0')) 0 /
        10 ^ (fraction.rdropWhile (· = '0')).length := by
    rw [← ofDigitChars_trim, value, six]
    unfold toSixDecimals
    rw [hm, Int.cast_natCast]
  have trimmed : (whole ++ '.' :: fraction).rdropWhile (· = '0') =
      whole ++ '.' :: fraction.rdropWhile (· = '0') := by
    clear written six df value six_value
    induction fraction using List.reverseRecOn with
    | nil => exact List.rdropWhile_concat_neg _ _ _ (by decide)
    | append_singleton fraction c ih =>
        rw [← List.cons_append, ← List.append_assoc]
        by_cases hc : c = '0'
        · rw [List.rdropWhile_concat_pos _ _ _ (by simpa using hc),
            List.rdropWhile_concat_pos _ _ _ (by simpa using hc), ih]
        · rw [List.rdropWhile_concat_neg _ _ _ (by simpa using hc),
            List.rdropWhile_concat_neg _ _ _ (by simpa using hc), List.append_assoc,
            List.cons_append]
  have digits : ∀ c ∈ fraction.rdropWhile (· = '0'), c.isDigit := fun c hc =>
    df c ((List.rdropWhile_prefix _ _).subset hc)
  have finite : fmtRate (.finite v) = String.ofList
      (if ((fixedDecimals 6 v).toList.rdropWhile (· = '0')).getLast? = some '.' then
        (fixedDecimals 6 v).toList.rdropWhile (· = '0') ++ ['0']
      else (fixedDecimals 6 v).toList.rdropWhile (· = '0')) := rfl
  rw [finite, written v hm, String.toList_ofList, trimmed]
  generalize fraction.rdropWhile (· = '0') = kept at six_value digits
  cases kept using List.reverseRecOn with
  | nil =>
      -- a whole number keeps one zero
      refine ⟨whole, ['0'], ⟨hw, by decide, dw, by decide, front⟩, ?_, ?_⟩
      · rw [six_value, List.append_nil]
        show Toml.Data.decimal _ = _
        rw [Nat.ofDigitChars_append, ofDigitChars_zero]
        simp
      · rw [if_pos (by simp)]
        simp [Toml.Value.text]
  | append_singleton kept c =>
      refine ⟨whole, kept ++ [c], ⟨hw, by simp, dw, digits, front⟩, ?_, ?_⟩
      · rw [six_value]
        rfl
      · have hc : c ≠ '.' := by
          rintro rfl
          exact absurd (digits '.' (by simp)) (by decide)
        have last : (whole ++ '.' :: (kept ++ [c])).getLast? = some c := by
          rw [← List.cons_append, ← List.append_assoc, List.getLast?_concat]
        rw [last, if_neg fun h => hc (Option.some.inj h)]
        rfl

/-! ## Texts -/

/-- How a character of a text is written. -/
def styleOf (c : Char) : Toml.Style :=
  if c = '"' then .letter '"'
  else if c = '\\' then .letter '\\'
  else if c = '\n' then .letter 'n'
  else if isControl c then .code
  else .raw

theorem upperHex4_eq : ∀ n < 160, upperHex4 n = Toml.hex4 n := by decide +kernel

theorem tomlChar_eq (c : Char) : tomlChar c = (styleOf c).text c := by
  unfold tomlChar styleOf
  split
  · rfl
  · split
    · rfl
    · split
      · rfl
      · split
        · rename_i h
          have small : c.toNat < 160 := by
            unfold isControl at h
            simp only [Bool.or_eq_true, Bool.and_eq_true, decide_eq_true_eq] at h
            omega
          rw [upperHex4_eq _ small]
          rfl
        · rfl

theorem styleOf_allowed (c : Char) : (styleOf c).Allowed c := by
  unfold styleOf
  split
  · rename_i h
    subst h
    rfl
  · split
    · rename_i h
      subst h
      rfl
    · split
      · rename_i h
        subst h
        rfl
      · rename_i hq hb _
        split
        · rename_i h
          unfold isControl at h
          simp only [Bool.or_eq_true, Bool.and_eq_true, decide_eq_true_eq] at h
          show c.toNat < 65536
          omega
        · rename_i h
          unfold isControl at h
          simp only [Bool.or_eq_true, Bool.and_eq_true, decide_eq_true_eq, not_or, not_and] at h
          refine ⟨hq, hb, ?_⟩
          unfold Toml.control
          simp only [Bool.or_eq_false_iff, Bool.and_eq_false_iff, decide_eq_false_iff_not]
          omega

/-- A text as a value. -/
def strValue (s : String) : Toml.Value := .str (s.toList.map fun c => (c, styleOf c))

theorem tomlStr_eq (s : String) : tomlStr s = String.ofList (strValue s).text := by
  have chars : s.toList.flatMap tomlChar =
      (s.toList.map fun c => (c, styleOf c)).flatMap fun p => p.2.text p.1 := by
    rw [List.flatMap_map]
    exact List.flatMap_congr fun c _ => tomlChar_eq c
  unfold tomlStr
  rw [chars]
  rfl

theorem strValue_wellFormed (s : String) : (strValue s).WellFormed := by
  intro p hp
  obtain ⟨c, _, rfl⟩ := List.mem_map.mp hp
  exact styleOf_allowed c

theorem strValue_data (s : String) : (strValue s).data = .str s := by
  have chars : (s.toList.map fun c => (c, styleOf c)).map Prod.fst = s.toList := by
    rw [List.map_map]
    exact List.map_id _
  show Toml.Data.str (String.ofList ((s.toList.map fun c => (c, styleOf c)).map Prod.fst)) = _
  rw [chars, String.ofList_toList]

/-- A price as a value: what stands before the point and what stands behind it. -/
def rateValue (v : Double) : Toml.Value :=
  .decimal ((fmtRate v).toList.takeWhile (· ≠ '.')) ((fmtRate v).toList.dropWhile (· ≠ '.')).tail

theorem rateValue_spec {v : ℚ} (h : 0 ≤ v) :
    (rateValue (.finite v)).WellFormed ∧
      (rateValue (.finite v)).data = .decimal (toSixDecimals v) ∧
      fmtRate (.finite v) = String.ofList (rateValue (.finite v)).text := by
  obtain ⟨whole, fraction, wellFormed, data, text⟩ := fmtRate_eq h
  have no_point : ∀ c ∈ whole, decide (c ≠ '.') = true := by
    intro c hc
    have := wellFormed.2.2.1 c hc
    rw [decide_eq_true_eq]
    rintro rfl
    exact absurd this (by decide)
  have same : rateValue (.finite v) = .decimal whole fraction := by
    unfold rateValue
    rw [text, String.toList_ofList]
    show Toml.Value.decimal ((whole ++ '.' :: fraction).takeWhile _)
      ((whole ++ '.' :: fraction).dropWhile _).tail = _
    rw [List.takeWhile_append_of_pos no_point, List.dropWhile_append_of_pos no_point,
      List.takeWhile_cons_of_neg (by decide), List.dropWhile_cons_of_neg (by decide),
      List.append_nil, List.tail_cons]
  rw [same]
  exact ⟨wellFormed, data, text⟩

/-- A text of which every character stands for itself. -/
def PlainText (s : String) : Prop := ∀ c ∈ s.toList, styleOf c = .raw

instance (s : String) : Decidable (PlainText s) :=
  inferInstanceAs (Decidable (∀ c ∈ s.toList, _))

theorem strValue_text {s : String} (h : PlainText s) :
    (strValue s).text = '"' :: s.toList ++ ['"'] := by
  have chars : (s.toList.map fun c => (c, styleOf c)).flatMap (fun p => p.2.text p.1) =
      s.toList := by
    rw [List.flatMap_map]
    have raw : s.toList.flatMap (fun c => (styleOf c).text c) = s.toList.flatMap fun c => [c] :=
      List.flatMap_congr fun c hc => by rw [h c hc]; rfl
    rw [raw]
    simp
  show '"' :: ((s.toList.map fun c => (c, styleOf c)).flatMap fun p => p.2.text p.1) ++ ['"'] = _
  rw [chars]

/-! ## The lines of the file -/

def pairLine (key : String) (value : Toml.Value) : Toml.Line := .pair key.toList value []

def headLines (p : TouPlan) (today tool : String) : List Toml.Line :=
  [.comment ("# lss electricity cost - a time-of-use plan typed into " ++ tool ++ " on " ++ today ++
      ".").toList,
    .comment
      "# This file is YOURS: re-run `lss-collector cost-setup` to change it, or edit it by hand".toList,
    .comment "# (packaging/rates.toml.example shows every key). Restart the collector after.".toList,
    pairLine "name" (strValue "Time-of-use (entered by hand)"),
    pairLine "effective_date" (strValue today),
    pairLine "source" (strValue (touSourceLabel today)),
    pairLine "source_detail" (strValue ("typed by hand during setup: on-peak " ++
      toString p.peakStart ++ "-" ++ toString p.peakEnd ++ "h weekdays"))] ++
  (if p.fixedUsdPerDay.within fun v => 0 < v then
    [pairLine "fixed_usd_per_day" (rateValue p.fixedUsdPerDay)] else [])

def planLines (p : TouPlan) : List Toml.Line :=
  [.comment [], .table ["plan".toList], pairLine "kind" (strValue "time_of_use")] ++
  (if p.seasons.isNone then
    [.comment ("# no seasons: every period below is season = \"any\", so these two months are not " ++
      "used").toList] else []) ++
  [pairLine "summer_start_month" (.int (summerMonths p).1),
    pairLine "summer_end_month" (.int (summerMonths p).2),
    .pair "holidays".toList .empty ("  # your utility's own holiday dates (\"YYYY-MM-DD\"): " ++
      "weekend prices apply on them").toList]

def periodLines (t : TouPeriod) : List Toml.Line :=
  [.comment [], .element ["plan".toList, "periods".toList],
    pairLine "name" (strValue t.name),
    pairLine "usd_per_kwh" (rateValue t.usd),
    pairLine "season" (strValue t.season),
    pairLine "day_kind" (strValue t.dayKind),
    pairLine "start_hour" (.int t.startHour),
    pairLine "end_hour" (.int t.endHour)]

def touLines (p : TouPlan) (today tool : String) : List Toml.Line :=
  headLines p today tool ++ planLines p ++ (touPeriods p).flatMap periodLines

/-- A number that is written with decimals. -/
def Priced (v : Double) : Prop := ∃ q : ℚ, 0 ≤ q ∧ v = .finite q

/-- A period as plans have it. -/
structure Usual (t : TouPeriod) : Prop where
  priced : Priced t.usd
  season : t.season = "summer" ∨ t.season = "winter" ∨ t.season = "any"
  dayKind : t.dayKind = "weekday" ∨ t.dayKind = "weekend_or_holiday" ∨ t.dayKind = "any"
  endHour : t.endHour ≤ 24
  startHour : t.startHour < t.endHour

theorem Priced.text {v : Double} (h : Priced v) :
    fmtRate v = String.ofList (rateValue v).text := by
  obtain ⟨q, hq, rfl⟩ := h
  exact (rateValue_spec hq).2.2

theorem text_append (xs ys : List Toml.Line) :
    Toml.text (xs ++ ys) = Toml.text xs ++ Toml.text ys := by
  unfold Toml.text
  rw [List.flatMap_append, String.ofList_append]

theorem int_text (n : ℕ) : (Toml.Value.int n).text = Nat.toDigits 10 n := rfl

theorem renderPeriod_eq {t : TouPeriod} (h : Usual t) :
    renderPeriod t = Toml.text (periodLines t) := by
  have season : PlainText t.season := by
    rcases h.season with h | h | h <;> · rw [h]; decide
  have dayKind : PlainText t.dayKind := by
    rcases h.dayKind with h | h | h <;> · rw [h]; decide
  apply String.toList_injective
  unfold renderPeriod Toml.text periodLines pairLine
  rw [tomlStr_eq, h.priced.text]
  simp [Toml.Line.text, strValue_text season, strValue_text dayKind, int_text, List.intercalate]

theorem text_cons (l : Toml.Line) (ls : List Toml.Line) :
    Toml.text (l :: ls) = String.ofList l.text ++ "\n" ++ Toml.text ls := by
  unfold Toml.text
  rw [List.flatMap_cons, String.ofList_append, String.ofList_append]

theorem comment_text (s : String) : String.ofList (Toml.Line.comment s.toList).text = s :=
  String.ofList_toList

theorem pairLine_text (key : String) (v : Toml.Value) :
    String.ofList (pairLine key v).text = key ++ " = " ++ String.ofList v.text := by
  show String.ofList (key.toList ++ " = ".toList ++ v.text ++ []) = _
  rw [List.append_nil, String.ofList_append, String.ofList_append, String.ofList_toList,
    String.ofList_toList]

theorem tomlStr_plain {s : String} (h : PlainText s) : tomlStr s = "\"" ++ s ++ "\"" := by
  rw [tomlStr_eq, strValue_text h]
  apply String.toList_injective
  simp

/-- The first lines of the file. -/
theorem headLines_eq (p : TouPlan) (today tool : String)
    (fixed : ∀ _ : (p.fixedUsdPerDay.within fun v => 0 < v) = true, Priced p.fixedUsdPerDay) :
    Toml.text (headLines p today tool) =
      "# lss electricity cost - a time-of-use plan typed into " ++ tool ++ " on " ++ today ++
      ".\n" ++
      "# This file is YOURS: re-run `lss-collector cost-setup` to change it, or edit it by hand\n" ++
      "# (packaging/rates.toml.example shows every key). Restart the collector after.\n" ++
      "name = \"Time-of-use (entered by hand)\"\n" ++
      ("effective_date = " ++ tomlStr today ++ "\n") ++
      ("source = " ++ tomlStr (touSourceLabel today) ++ "\n") ++
      ("source_detail = " ++ tomlStr ("typed by hand during setup: on-peak " ++
        toString p.peakStart ++ "-" ++ toString p.peakEnd ++ "h weekdays") ++ "\n") ++
      (if p.fixedUsdPerDay.within fun v => 0 < v then
        "fixed_usd_per_day = " ++ fmtRate p.fixedUsdPerDay ++ "\n" else "") := by
  have end₁ : ".\n" = "." ++ "\n" := rfl
  have end₂ :
      "# This file is YOURS: re-run `lss-collector cost-setup` to change it, or edit it by hand\n" =
      "# This file is YOURS: re-run `lss-collector cost-setup` to change it, or edit it by hand" ++
        "\n" := rfl
  have end₃ : "# (packaging/rates.toml.example shows every key). Restart the collector after.\n" =
      "# (packaging/rates.toml.example shows every key). Restart the collector after." ++ "\n" := rfl
  have name : "name = \"Time-of-use (entered by hand)\"\n" =
      "name" ++ " = " ++ ("\"" ++ "Time-of-use (entered by hand)" ++ "\"") ++ "\n" := rfl
  have key₁ : "effective_date = " = "effective_date" ++ " = " := rfl
  have key₂ : "source = " = "source" ++ " = " := rfl
  have key₃ : "source_detail = " = "source_detail" ++ " = " := rfl
  have key₄ : "fixed_usd_per_day = " = "fixed_usd_per_day" ++ " = " := rfl
  have plain : PlainText "Time-of-use (entered by hand)" := by decide
  have last : Toml.text (if p.fixedUsdPerDay.within fun v => 0 < v then
        [pairLine "fixed_usd_per_day" (rateValue p.fixedUsdPerDay)] else []) =
      if p.fixedUsdPerDay.within fun v => 0 < v then
        "fixed_usd_per_day = " ++ fmtRate p.fixedUsdPerDay ++ "\n" else "" := by
    split
    · rename_i h
      rw [text_cons, pairLine_text, (fixed h).text, key₄]
      exact String.append_empty
    · rfl
  unfold headLines
  rw [text_append, last, end₁, end₂, end₃, name, key₁, key₂, key₃, ← tomlStr_plain plain]
  simp only [text_cons, comment_text, pairLine_text, ← tomlStr_eq, String.append_assoc]
  rfl

/-- The lines of the plan. -/
theorem planLines_eq (p : TouPlan) :
    Toml.text (planLines p) =
      "\n[plan]\nkind = \"time_of_use\"\n" ++
      (if p.seasons.isNone then
        "# no seasons: every period below is season = \"any\", so these two months are not used\n"
        else "") ++
      ("summer_start_month = " ++ toString (summerMonths p).1 ++ "\nsummer_end_month = " ++
        toString (summerMonths p).2 ++ "\n") ++
      ("holidays = []  # your utility's own holiday dates (\"YYYY-MM-DD\"): weekend prices apply " ++
        "on them\n") := by
  have head : "\n[plan]\nkind = \"time_of_use\"\n" =
      "" ++ "\n" ++ "[plan]" ++ "\n" ++ "kind" ++ " = " ++ ("\"" ++ "time_of_use" ++ "\"") ++
        "\n" := rfl
  have unused :
      "# no seasons: every period below is season = \"any\", so these two months are not used\n" =
      "# no seasons: every period below is season = \"any\", so these two months are not " ++
        "used" ++ "\n" := rfl
  have key₁ : "summer_start_month = " = "summer_start_month" ++ " = " := rfl
  have key₂ : "\nsummer_end_month = " = "\n" ++ "summer_end_month" ++ " = " := rfl
  have holidays :
      "holidays = []  # your utility's own holiday dates (\"YYYY-MM-DD\"): weekend prices apply " =
      "holidays" ++ " = " ++ "[]" ++
        "  # your utility's own holiday dates (\"YYYY-MM-DD\"): " ++ "weekend prices apply " := rfl
  have trailing : "weekend prices apply on them" = "weekend prices apply " ++ "on them" := rfl
  have them : "on them\n" = "on them" ++ "\n" := rfl
  have plain : PlainText "time_of_use" := by decide
  have blank : String.ofList (Toml.Line.comment []).text = "" := rfl
  have table : String.ofList (Toml.Line.table ["plan".toList]).text = "[plan]" := rfl
  have empty : ∀ rest : String, String.ofList
      (Toml.Line.pair "holidays".toList .empty rest.toList).text =
      "holidays" ++ " = " ++ "[]" ++ rest := by
    intro rest
    show String.ofList ("holidays".toList ++ " = ".toList ++ "[]".toList ++ rest.toList) = _
    simp only [String.ofList_append, String.ofList_toList]
  have number : ∀ n : ℕ, String.ofList (Toml.Value.int n).text = toString n := fun n => by
    rw [int_text, Nat.toString_eq_ofList_toDigits]
  have last : Toml.text [] = "" := rfl
  have middle : Toml.text (if p.seasons.isNone then
      [.comment ("# no seasons: every period below is season = \"any\", so these two months are not " ++
        "used").toList] else []) =
      if p.seasons.isNone then
        "# no seasons: every period below is season = \"any\", so these two months are not " ++
          "used" ++ "\n" else "" := by
    split
    · rw [text_cons, comment_text, last, String.append_empty]
    · rfl
  unfold planLines
  rw [text_append, text_append, head, unused, key₁, key₂, holidays, them, ← tomlStr_plain plain]
  rw [middle]
  simp only [text_cons, blank, table, empty, number, pairLine_text, ← tomlStr_eq, last, trailing,
    String.append_assoc, String.append_empty, String.empty_append]

/-! ## What the check says -/

theorem bind_eq_ok {ε α β : Type} {x : Except ε α} {f : α → Except ε β} {b : β} :
    (x >>= f) = .ok b ↔ ∃ a, x = .ok a ∧ f a = .ok b := by
  cases x with
  | error e => exact ⟨fun h => (nomatch h), fun ⟨_, h, _⟩ => (nomatch h)⟩
  | ok a => exact ⟨fun h => ⟨a, rfl, h⟩, fun ⟨_, h, hf⟩ => by cases h; exact hf⟩

/-- What is true of a plan that passes the check. -/
structure Accepted (p : TouPlan) : Prop where
  onPeak : Priced p.onPeak
  offPeak : Priced p.offPeak
  weekendPeak : Priced p.weekendPeak
  hours : p.peakStart < p.peakEnd
  midnight : p.peakEnd ≤ 24
  winterPeak : ∀ s, p.seasons = some s → Priced s.winterPeak
  months : ∀ s, p.seasons = some s → s.summerStart < s.summerEnd ∧ s.summerEnd ≤ 12
  fixed : Priced p.fixedUsdPerDay

theorem priced_of_within {v : Double} {p : ℚ → Prop} [DecidablePred p] (h : v.within p = true)
    (hp : ∀ q, p q → 0 ≤ q) : Priced v := by
  cases v with
  | finite q => exact ⟨q, hp q (of_decide_eq_true h), rfl⟩
  | infinite negative => cases h
  | notANumber => cases h

theorem priced_of_checkPrice {display : Double → String} {v : Double} {what : String}
    (h : checkPrice display v what = .ok ()) : Priced v := by
  unfold checkPrice at h
  split at h
  · rename_i hv
    exact priced_of_within hv fun q hq => hq.1.le
  · cases h

theorem accepted_of_checkTou {display : Double → String} {p : TouPlan}
    (h : checkTou display p = .ok ()) : Accepted p := by
  unfold checkTou at h
  obtain ⟨_, onPeak, h⟩ := bind_eq_ok.mp h
  obtain ⟨_, offPeak, h⟩ := bind_eq_ok.mp h
  obtain ⟨_, weekendPeak, h⟩ := bind_eq_ok.mp h
  split at h
  · cases h
  · rename_i hours
    split at h
    · cases h
    · rename_i order
      obtain ⟨_, seasons, h⟩ := bind_eq_ok.mp h
      split at h
      · rename_i fixed
        refine ⟨priced_of_checkPrice onPeak, priced_of_checkPrice offPeak,
          priced_of_checkPrice weekendPeak, by omega, by omega, ?_, ?_,
          priced_of_within fixed fun q hq => hq.1⟩
        · intro s hs
          rw [hs] at seasons
          obtain ⟨_, price, _⟩ := bind_eq_ok.mp seasons
          exact priced_of_checkPrice price
        · intro s hs
          rw [hs] at seasons
          obtain ⟨_, _, months⟩ := bind_eq_ok.mp seasons
          split at months
          · cases months
          · omega
      · cases h

/-- Every period of such a plan can be written. -/
theorem usual_touPeriods {p : TouPlan} (h : Accepted p) : ∀ t ∈ touPeriods p, Usual t := by
  have hours := h.hours
  have midnight := h.midnight
  intro t ht
  obtain ⟨hspan, hlt⟩ := List.mem_filter.mp ht
  have hlt : t.startHour < t.endHour := of_decide_eq_true hlt
  cases hs : p.seasons with
  | none =>
      rw [hs] at hspan
      simp only [Option.isSome_none, List.append_nil, List.mem_cons, List.not_mem_nil,
        or_false] at hspan
      rcases hspan with rfl | rfl | rfl | rfl | rfl | rfl
      · exact ⟨h.onPeak, by simp, by simp, midnight, hlt⟩
      · exact ⟨h.offPeak, by simp, by simp, by dsimp only; omega, hlt⟩
      · exact ⟨h.offPeak, by simp, by simp, le_rfl, hlt⟩
      · exact ⟨h.weekendPeak, by simp, by simp, midnight, hlt⟩
      · exact ⟨h.offPeak, by simp, by simp, by dsimp only; omega, hlt⟩
      · exact ⟨h.offPeak, by simp, by simp, le_rfl, hlt⟩
  | some s =>
      rw [hs] at hspan
      simp only [Option.isSome_some, if_true, List.cons_append, List.nil_append, List.mem_cons,
        List.not_mem_nil, or_false] at hspan
      rcases hspan with rfl | rfl | rfl | rfl | rfl | rfl | rfl | rfl | rfl
      · exact ⟨h.onPeak, by simp, by simp, midnight, hlt⟩
      · exact ⟨h.offPeak, by simp, by simp, by dsimp only; omega, hlt⟩
      · exact ⟨h.offPeak, by simp, by simp, le_rfl, hlt⟩
      · exact ⟨h.weekendPeak, by simp, by simp, midnight, hlt⟩
      · exact ⟨h.offPeak, by simp, by simp, by dsimp only; omega, hlt⟩
      · exact ⟨h.offPeak, by simp, by simp, le_rfl, hlt⟩
      · exact ⟨h.winterPeak s hs, by simp, by simp, midnight, hlt⟩
      · exact ⟨h.offPeak, by simp, by simp, by dsimp only; omega, hlt⟩
      · exact ⟨h.offPeak, by simp, by simp, le_rfl, hlt⟩

theorem text_periods {ts : List TouPeriod} (h : ∀ t ∈ ts, Usual t) :
    Toml.text (ts.flatMap periodLines) = String.join (ts.map renderPeriod) := by
  induction ts with
  | nil => rfl
  | cons t ts ih =>
      rw [List.flatMap_cons, text_append, ← renderPeriod_eq (h t List.mem_cons_self),
        ih fun u hu => h u (List.mem_cons_of_mem _ hu), List.map_cons, String.join_cons]

/-- The file is the text of its lines. -/
theorem renderTouToml_eq {p : TouPlan} (h : Accepted p) (today tool : String) :
    renderTouToml p today tool = Toml.text (touLines p today tool) := by
  unfold touLines renderTouToml
  rw [text_append, text_append, headLines_eq p today tool fun _ => h.fixed, planLines_eq,
    text_periods (usual_touPeriods h)]
  simp only [String.append_assoc]

/-! ## What the file says -/

def rootPairs (p : TouPlan) (today : String) : Pairs :=
  [("name", .str "Time-of-use (entered by hand)"), ("effective_date", .str today),
    ("source", .str (touSourceLabel today)),
    ("source_detail", .str ("typed by hand during setup: on-peak " ++ toString p.peakStart ++ "-" ++
      toString p.peakEnd ++ "h weekdays"))] ++
  if p.fixedUsdPerDay.within fun v => 0 < v then
    [("fixed_usd_per_day", (rateValue p.fixedUsdPerDay).data)] else []

def planPairs (p : TouPlan) : Pairs :=
  [("kind", .str "time_of_use"), ("summer_start_month", .int (summerMonths p).1),
    ("summer_end_month", .int (summerMonths p).2), ("holidays", .empty)]

def periodPairs (t : TouPeriod) : Pairs :=
  [("name", .str t.name), ("usd_per_kwh", (rateValue t.usd).data), ("season", .str t.season),
    ("day_kind", .str t.dayKind), ("start_hour", .int t.startHour), ("end_hour", .int t.endHour)]

def periodSection (t : TouPeriod) : Toml.Section :=
  ⟨.element ["plan", "periods"], periodPairs t⟩

theorem pairLine_item (key : String) (v : Toml.Value) :
    (pairLine key v).item = .pair key v.data := by
  show Toml.Item.pair (String.ofList key.toList) v.data = _
  rw [String.ofList_toList]

theorem comment_item (text : List Char) : (Toml.Line.comment text).item = .nothing := rfl

theorem plan_item : (Toml.Line.table ["plan".toList]).item = .header (.table ["plan"]) := by
  show Toml.Item.header (.table [String.ofList "plan".toList]) = _
  rw [String.ofList_toList]

theorem holidays_item (rest : List Char) :
    (Toml.Line.pair "holidays".toList .empty rest).item = .pair "holidays" .empty := by
  show Toml.Item.pair (String.ofList "holidays".toList) _ = _
  rw [String.ofList_toList]
  rfl

theorem int_data (n : ℕ) : (Toml.Value.int n).data = .int n := rfl

theorem element_item : (Toml.Line.element ["plan".toList, "periods".toList]).item =
    .header (.element ["plan", "periods"]) := by
  show Toml.Item.header (.element [String.ofList "plan".toList, String.ofList "periods".toList]) = _
  rw [String.ofList_toList, String.ofList_toList]

theorem sections_periods (h : Toml.Header) (pairs : Pairs) (ts : List TouPeriod) :
    Toml.sections h pairs ((ts.flatMap periodLines).map Toml.Line.item) =
      ⟨h, pairs⟩ :: ts.map periodSection := by
  induction ts generalizing h pairs with
  | nil => rfl
  | cons t ts ih =>
      have items : (periodLines t).map Toml.Line.item =
          [.nothing, .header (.element ["plan", "periods"]), .pair "name" (.str t.name),
            .pair "usd_per_kwh" (rateValue t.usd).data, .pair "season" (.str t.season),
            .pair "day_kind" (.str t.dayKind), .pair "start_hour" (.int t.startHour),
            .pair "end_hour" (.int t.endHour)] := by
        unfold periodLines
        simp only [List.map_cons, List.map_nil, pairLine_item, strValue_data, comment_item,
          element_item, int_data]
      rw [List.flatMap_cons, List.map_append, items]
      simp only [List.cons_append, List.nil_append, Toml.sections, ih, List.map_cons]
      rfl

/-- The sections of the file: the head, the plan, and one for each period. -/
theorem meaning_touLines (p : TouPlan) (today tool : String) :
    Toml.meaning (touLines p today tool) =
      ⟨.root, rootPairs p today⟩ :: ⟨.table ["plan"], planPairs p⟩ ::
        (touPeriods p).map periodSection := by
  unfold Toml.meaning touLines headLines planLines rootPairs planPairs
  simp only [List.map_append, List.map_cons, List.map_nil, pairLine_item, strValue_data,
    comment_item, plan_item, holidays_item, int_data]
  split <;> split <;>
    simp only [List.map_cons, List.map_nil, pairLine_item, comment_item, List.cons_append,
      List.nil_append, List.append_nil, Toml.sections, sections_periods]

/-- A label that may stand in a comment. -/
def Printable (s : String) : Prop := ∀ c ∈ s.toList, Toml.control c = false

instance (s : String) : Decidable (Printable s) :=
  inferInstanceAs (Decidable (∀ c ∈ s.toList, _))

theorem printable_append {s t : String} (hs : Printable s) (ht : Printable t) :
    Printable (s ++ t) := by
  intro c hc
  rw [String.toList_append] at hc
  rcases List.mem_append.mp hc with hc | hc
  · exact hs c hc
  · exact ht c hc

theorem pairLine_wellFormed {key : String} {v : Toml.Value} (hk : Toml.Bare key.toList)
    (hv : v.WellFormed) : (pairLine key v).WellFormed :=
  ⟨hk, hv, Or.inl rfl, fun _ h => absurd h List.not_mem_nil⟩

theorem Priced.wellFormed {v : Double} (h : Priced v) : (rateValue v).WellFormed := by
  obtain ⟨q, hq, rfl⟩ := h
  exact (rateValue_spec hq).1

theorem headLines_wellFormed {p : TouPlan} {today tool : String} (h : Accepted p)
    (htoday : Printable today) (htool : Printable tool) :
    ∀ l ∈ headLines p today tool, l.WellFormed := by
  have written : Printable ("# lss electricity cost - a time-of-use plan typed into " ++ tool ++
      " on " ++ today ++ ".") :=
    printable_append (printable_append (printable_append (printable_append (by decide) htool)
      (by decide)) htoday) (by decide)
  have first : Toml.Trailing ("# lss electricity cost - a time-of-use plan typed into " ++ tool ++
      " on " ++ today ++ ".").toList := by
    refine ⟨Or.inr ?_, written⟩
    simp
  intro l hl
  unfold headLines at hl
  rcases List.mem_append.mp hl with hl | hl
  · simp only [List.mem_cons, List.not_mem_nil, or_false] at hl
    rcases hl with rfl | rfl | rfl | rfl | rfl | rfl | rfl
    · exact first
    · exact .of_text rfl (by decide) (by decide)
    · exact .of_text rfl (by decide) (by decide)
    · exact pairLine_wellFormed ⟨by decide, by decide⟩ (strValue_wellFormed _)
    · exact pairLine_wellFormed ⟨by decide, by decide⟩ (strValue_wellFormed _)
    · exact pairLine_wellFormed ⟨by decide, by decide⟩ (strValue_wellFormed _)
    · exact pairLine_wellFormed ⟨by decide, by decide⟩ (strValue_wellFormed _)
  · split at hl
    · rw [List.mem_singleton.mp hl]
      exact pairLine_wellFormed ⟨by decide, by decide⟩ h.fixed.wellFormed
    · exact absurd hl List.not_mem_nil

theorem summerMonths_le {p : TouPlan} (h : Accepted p) :
    (summerMonths p).1 ≤ 12 ∧ (summerMonths p).2 ≤ 12 := by
  unfold summerMonths
  cases hs : p.seasons with
  | none => exact ⟨by decide, by decide⟩
  | some s =>
      obtain ⟨h₁, h₂⟩ := h.months s hs
      exact ⟨h₁.le.trans h₂, h₂⟩

theorem int_wellFormed {n : ℕ} (h : n ≤ 24) : (Toml.Value.int n).WellFormed :=
  h.trans_lt (by norm_num)

theorem planLines_wellFormed {p : TouPlan} (h : Accepted p) :
    ∀ l ∈ planLines p, l.WellFormed := by
  obtain ⟨start, stop⟩ := summerMonths_le h
  have start := int_wellFormed (start.trans (by decide))
  have stop := int_wellFormed (stop.trans (by decide))
  intro l hl
  unfold planLines at hl
  simp only [List.mem_append, List.mem_cons, List.not_mem_nil, or_false] at hl
  rcases hl with ((rfl | rfl | rfl) | hl) | rfl | rfl | rfl
  · exact ⟨Or.inl rfl, fun _ hc => absurd hc List.not_mem_nil⟩
  · refine ⟨by simp, ?_⟩
    intro key hkey
    rw [List.mem_singleton.mp hkey]
    exact ⟨by decide, by decide⟩
  · exact pairLine_wellFormed ⟨by decide, by decide⟩ (strValue_wellFormed _)
  · split at hl
    · rw [List.mem_singleton.mp hl]
      exact .of_texts rfl rfl (by decide) (by decide)
    · exact absurd hl List.not_mem_nil
  · exact pairLine_wellFormed ⟨by decide, by decide⟩ start
  · exact pairLine_wellFormed ⟨by decide, by decide⟩ stop
  · exact ⟨⟨by decide, by decide⟩, trivial, .of_texts rfl rfl (by decide) (by decide)⟩

theorem periodLines_wellFormed {t : TouPeriod} (h : Usual t) :
    ∀ l ∈ periodLines t, l.WellFormed := by
  have stop := int_wellFormed h.endHour
  have start := int_wellFormed (h.startHour.le.trans h.endHour)
  intro l hl
  unfold periodLines at hl
  simp only [List.mem_cons, List.not_mem_nil, or_false] at hl
  rcases hl with rfl | rfl | rfl | rfl | rfl | rfl | rfl | rfl
  · exact ⟨Or.inl rfl, fun _ hc => absurd hc List.not_mem_nil⟩
  · refine ⟨by simp, ?_⟩
    intro key hkey
    simp only [List.mem_cons, List.not_mem_nil, or_false] at hkey
    rcases hkey with rfl | rfl
    · exact ⟨by decide, by decide⟩
    · exact ⟨by decide, by decide⟩
  · exact pairLine_wellFormed ⟨by decide, by decide⟩ (strValue_wellFormed _)
  · exact pairLine_wellFormed ⟨by decide, by decide⟩ h.priced.wellFormed
  · exact pairLine_wellFormed ⟨by decide, by decide⟩ (strValue_wellFormed _)
  · exact pairLine_wellFormed ⟨by decide, by decide⟩ (strValue_wellFormed _)
  · exact pairLine_wellFormed ⟨by decide, by decide⟩ start
  · exact pairLine_wellFormed ⟨by decide, by decide⟩ stop

/-- The three kinds of sections of such a file. -/
theorem mem_sections {p : TouPlan} {today tool : String} {s : Toml.Section}
    (h : s ∈ Toml.meaning (touLines p today tool)) :
    s = ⟨.root, rootPairs p today⟩ ∨ s = ⟨.table ["plan"], planPairs p⟩ ∨
      ∃ t, s = periodSection t := by
  rw [meaning_touLines, List.mem_cons, List.mem_cons, List.mem_map] at h
  rcases h with h | h | ⟨t, _, h⟩
  · exact Or.inl h
  · exact Or.inr (Or.inl h)
  · exact Or.inr (Or.inr ⟨t, h.symm⟩)

theorem keys_rootPairs (p : TouPlan) (today : String) :
    (rootPairs p today).map Prod.fst <+:
      ["name", "effective_date", "source", "source_detail", "fixed_usd_per_day"] := by
  unfold rootPairs
  rw [List.map_append]
  split
  · exact ⟨[], rfl⟩
  · exact ⟨["fixed_usd_per_day"], rfl⟩

/-- The file is a document: nothing in it is defined twice. -/
theorem valid_touLines {p : TouPlan} (h : Accepted p) {today tool : String}
    (htoday : Printable today) (htool : Printable tool) :
    Toml.Valid (touLines p today tool) where
  wellFormed := by
    intro l hl
    unfold touLines at hl
    rcases List.mem_append.mp hl with hl | hl
    · rcases List.mem_append.mp hl with hl | hl
      · exact headLines_wellFormed h htoday htool l hl
      · exact planLines_wellFormed h l hl
    · obtain ⟨t, ht, hl⟩ := List.mem_flatMap.mp hl
      exact periodLines_wellFormed (usual_touPeriods h t ht) l hl
  keys := by
    intro s hs
    rcases mem_sections hs with rfl | rfl | ⟨t, rfl⟩
    · exact (keys_rootPairs p today).sublist.nodup (by decide)
    · show ["kind", "summer_start_month", "summer_end_month", "holidays"].Nodup
      decide
    · show ["name", "usd_per_kwh", "season", "day_kind", "start_hour", "end_hour"].Nodup
      decide
  opened := by
    -- the headers are the first parts of one path
    have path : ∀ t ∈ Toml.meaning (touLines p today tool),
        t.header.path <+: ["plan", "periods"] := by
      intro t ht
      rcases mem_sections ht with rfl | rfl | ⟨u, rfl⟩
      · exact List.nil_prefix
      · exact ⟨["periods"], rfl⟩
      · exact List.prefix_refl _
    intro s hs pair hpair t ht hle
    have hle := hle.trans (path t ht)
    rcases mem_sections hs with rfl | rfl | ⟨u, rfl⟩
    · have key := (keys_rootPairs p today).subset (List.mem_map_of_mem hpair)
      rw [Toml.Header.path, List.nil_append, List.cons_prefix_cons] at hle
      rw [hle.1] at key
      exact absurd key (by decide)
    · have key : pair.1 ∈ (planPairs p).map Prod.fst := List.mem_map_of_mem hpair
      rw [Toml.Header.path, List.singleton_append, List.cons_prefix_cons, List.cons_prefix_cons]
        at hle
      rw [hle.2.1] at key
      change "periods" ∈ ["kind", "summer_start_month", "summer_end_month", "holidays"] at key
      exact absurd key (by decide)
    · exact absurd hle.length_le (by simp [periodSection, Toml.Header.path])
  tables := by
    rw [meaning_touLines]
    have rest : ((touPeriods p).map periodSection).filterMap (fun s => s.header.opens) = [] := by
      rw [List.filterMap_map, List.filterMap_eq_nil_iff]
      intro t _
      rfl
    rw [List.filterMap_cons, List.filterMap_cons, rest]
    exact List.nodup_singleton _
  elements := by
    intro s hs t ht path hpath hle
    rcases mem_sections hs with rfl | rfl | ⟨u, rfl⟩
    · cases hpath
    · cases hpath
    · cases hpath
      rcases mem_sections ht with rfl | rfl | ⟨w, rfl⟩
      · exact absurd hle.length_le (by simp [Toml.Header.path])
      · exact absurd hle.length_le (by simp [Toml.Header.path])
      · rfl

/-! ## The table -/

/-- A price as it is read back. -/
def priceRead : Double → ℚ
  | .finite v => toSixDecimals v
  | .infinite _ => 0
  | .notANumber => 0

/-- A period as it is read back. -/
def periodOf (t : TouPeriod) : Period :=
  { name := t.name
    usdPerKwh := priceRead t.usd
    season := t.season
    dayKind := t.dayKind
    startHour := t.startHour
    endHour := t.endHour }

theorem Priced.number {v : Double} (h : Priced v) :
    Pairs.number (rateValue v).data = some (priceRead v) := by
  obtain ⟨q, hq, rfl⟩ := h
  rw [(rateValue_spec hq).2.1]
  rfl

theorem count_int {n : ℕ} (h : n ≤ 24) : Pairs.count (.int n) = some n :=
  if_pos (h.trans_lt (by norm_num))

theorem decodePeriod_periodPairs {t : TouPeriod} (h : Usual t) :
    decodePeriod (periodPairs t) = some (periodOf t) := by
  have name : (periodPairs t).required "name" Pairs.text = some t.name := rfl
  have price : (periodPairs t).required "usd_per_kwh" Pairs.number = some (periodOf t).usdPerKwh :=
    h.priced.number
  have season : (periodPairs t).required "season" Pairs.text = some t.season := rfl
  have dayKind : (periodPairs t).required "day_kind" Pairs.text = some t.dayKind := rfl
  have start : (periodPairs t).required "start_hour" Pairs.count = some t.startHour :=
    count_int (h.startHour.le.trans h.endHour)
  have stop : (periodPairs t).required "end_hour" Pairs.count = some t.endHour :=
    count_int h.endHour
  unfold decodePeriod
  rw [name, price, season, dayKind, start, stop]
  rfl

theorem mapM_decodePeriod {ts : List TouPeriod} (h : ∀ t ∈ ts, Usual t) :
    (ts.map periodPairs).mapM decodePeriod = some (ts.map periodOf) := by
  induction ts with
  | nil => rfl
  | cons t ts ih =>
      rw [List.map_cons, List.mapM_cons, decodePeriod_periodPairs (h t List.mem_cons_self),
        ih fun u hu => h u (List.mem_cons_of_mem _ hu)]
      rfl

/-- A plan has a peak, so it has a period. -/
theorem touPeriods_ne_nil {p : TouPlan} (h : Accepted p) : touPeriods p ≠ [] := by
  have hours := h.hours
  intro he
  unfold touPeriods at he
  dsimp only at he
  rw [List.filter_eq_nil_iff] at he
  exact absurd (decide_eq_true hours) (he _ (by simp; exact Or.inl rfl))

theorem decodePlan_planPairs {p : TouPlan} (h : Accepted p) :
    decodePlan (planPairs p) ((touPeriods p).map periodPairs) =
      some (.timeOfUse (summerMonths p).1 (summerMonths p).2 [] ((touPeriods p).map periodOf)) := by
  obtain ⟨start_le, stop_le⟩ := summerMonths_le h
  have kind : (planPairs p).required "kind" Pairs.text = some "time_of_use" := rfl
  have start : (planPairs p).required "summer_start_month" Pairs.count =
      some (summerMonths p).1 := count_int (start_le.trans (by decide))
  have stop : (planPairs p).required "summer_end_month" Pairs.count =
      some (summerMonths p).2 := count_int (stop_le.trans (by decide))
  have holidays : (planPairs p).required "holidays" Pairs.texts = some [] := rfl
  have some_period : (touPeriods p).map periodPairs ≠ [] := by
    simpa using touPeriods_ne_nil h
  unfold decodePlan
  rw [kind, start, stop, holidays, mapM_decodePeriod (usual_touPeriods h)]
  simp [some_period]

theorem below_cons (s : Toml.Section) (ss : List Toml.Section) (k : Toml.Header) :
    below (s :: ss) k = if s.header = k then s.pairs :: below ss k else below ss k := by
  unfold below
  by_cases hk : s.header = k
  · rw [List.filter_cons_of_pos (by simpa using hk), if_pos hk]
    rfl
  · rw [List.filter_cons_of_neg (by simpa using hk), if_neg hk]

theorem below_periods (ts : List TouPeriod) :
    below (ts.map periodSection) (.element ["plan", "periods"]) = ts.map periodPairs := by
  induction ts with
  | nil => rfl
  | cons t ts ih =>
      have header : (periodSection t).header = .element ["plan", "periods"] := rfl
      rw [List.map_cons, below_cons, if_pos header, ih]
      rfl

/-- The daily charge as it is read back; there is none when it is zero. -/
def chargeRead (p : TouPlan) : Option ℚ :=
  if p.fixedUsdPerDay.within fun v => 0 < v then some (priceRead p.fixedUsdPerDay) else none

theorem decode_touLines {p : TouPlan} (h : Accepted p) (today tool : String) :
    ∃ f, decodeRatesFile (Toml.meaning (touLines p today tool)) = some f ∧
      f.plan = .timeOfUse (summerMonths p).1 (summerMonths p).2 []
        ((touPeriods p).map periodOf) ∧
      f.fixedUsdPerDay = chargeRead p := by
  have root : (below (Toml.meaning (touLines p today tool)) .root).head? =
      some (rootPairs p today) := by
    rw [meaning_touLines, below_cons, if_pos rfl]
    rfl
  have plan : (below (Toml.meaning (touLines p today tool)) (.table ["plan"])).head? =
      some (planPairs p) := by
    rw [meaning_touLines, below_cons, if_neg (by simp), below_cons, if_pos rfl]
    rfl
  have periods : below (Toml.meaning (touLines p today tool)) (.element ["plan", "periods"]) =
      (touPeriods p).map periodPairs := by
    rw [meaning_touLines, below_cons, if_neg (by simp), below_cons, if_neg (by simp),
      below_periods]
  have name : (rootPairs p today).required "name" Pairs.text =
      some "Time-of-use (entered by hand)" := rfl
  have date : (rootPairs p today).required "effective_date" Pairs.text = some today := rfl
  have source : (rootPairs p today).optional "source" Pairs.text =
      some (some (touSourceLabel today)) := rfl
  have detail : (rootPairs p today).optional "source_detail" Pairs.text =
      some (some ("typed by hand during setup: on-peak " ++ toString p.peakStart ++ "-" ++
        toString p.peakEnd ++ "h weekdays")) := rfl
  -- the daily charge may be missing, and some keys are never written
  have fixed : (rootPairs p today).optional "fixed_usd_per_day" Pairs.number =
      some (chargeRead p) := by
    have number := h.fixed.number
    have field : (rootPairs p today).field "fixed_usd_per_day" =
        if p.fixedUsdPerDay.within fun v => 0 < v then some (rateValue p.fixedUsdPerDay).data
        else none := by
      unfold rootPairs
      split
      · rfl
      · rfl
    unfold Pairs.optional chargeRead
    rw [field]
    by_cases charged : p.fixedUsdPerDay.within (fun v => 0 < v) = true
    · rw [if_pos charged, if_pos charged, ← number]
      rfl
    · rw [if_neg charged, if_neg charged]
  have missing : ∀ {α : Type} (key : String) (as : Toml.Data → Option α),
      key ∉ ["name", "effective_date", "source", "source_detail", "fixed_usd_per_day"] →
      (rootPairs p today).optional key as = some none := by
    intro α key as hkey
    have absent : (rootPairs p today).find? (fun q => q.1 = key) = none := by
      rw [List.find?_eq_none]
      intro q hq he
      have := (keys_rootPairs p today).subset (List.mem_map_of_mem hq)
      rw [of_decide_eq_true he] at this
      exact hkey this
    unfold Pairs.optional Pairs.field
    rw [absent]
    rfl
  unfold decodeRatesFile
  rw [root, plan, periods]
  simp only [Option.bind_eq_bind, Option.bind_some]
  rw [name, date, fixed, missing "unresolved_usd_per_kwh" _ (by decide), decodePlan_planPairs h,
    source, detail, missing "source_url" _ (by decide), missing "country" _ (by decide),
    missing "currency" _ (by decide)]
  exact ⟨_, rfl, rfl, rfl⟩

/-- The written plan is read back: its periods, each with its price, and its daily charge. -/
theorem read_renderTouToml {readToml : String → Option (List Toml.Section)}
    (correct : ∀ lines, Toml.Valid lines → readToml (Toml.text lines) = some (Toml.meaning lines))
    {p : TouPlan} (h : Accepted p) {today tool : String} (htoday : Printable today)
    (htool : Printable tool) :
    ∃ f, readRatesFile readToml (renderTouToml p today tool) = some f ∧
      f.plan = .timeOfUse (summerMonths p).1 (summerMonths p).2 []
        ((touPeriods p).map periodOf) ∧
      f.fixedUsdPerDay = chargeRead p := by
  obtain ⟨f, decoded, plan, fixed⟩ := decode_touLines h today tool
  refine ⟨f, ?_, plan, fixed⟩
  unfold readRatesFile
  rw [renderTouToml_eq h, correct _ (valid_touLines h htoday htool), Option.bind_some, decoded]

/-! ## Every hour as typed -/

/-- The price that was typed for an hour of a day. -/
def typedPrice (p : TouPlan) (ctx : DayContext) : Double :=
  if p.peakStart ≤ ctx.hour ∧ ctx.hour < p.peakEnd then
    match p.seasons with
    | some s =>
      if ctx.isSummer then if ctx.isWeekendOrHoliday then p.weekendPeak else p.onPeak
      else s.winterPeak
    | none => if ctx.isWeekendOrHoliday then p.weekendPeak else p.onPeak
  else p.offPeak

/-- A period that matches an hour is not empty, so none was left out for it. -/
theorem filter_matches (spans : List TouPeriod) (ctx : DayContext) :
    (((spans.filter fun span => span.startHour < span.endHour).map periodOf).filter fun t =>
      t.matches ctx) = (spans.map periodOf).filter fun t => t.matches ctx := by
  induction spans with
  | nil => rfl
  | cons t spans ih =>
      by_cases ht : t.startHour < t.endHour
      · rw [List.filter_cons_of_pos (by simpa using ht), List.map_cons, List.map_cons,
          List.filter_cons, List.filter_cons, ih]
      · have empty : (periodOf t).matches ctx = false := by
          unfold Period.matches periodOf
          simp only [Bool.and_eq_false_iff, decide_eq_false_iff_not]
          omega
        rw [List.filter_cons_of_neg (by simpa using ht), List.map_cons,
          List.filter_cons_of_neg (by rw [empty]; decide), ih]

/-- Where an hour lies: before the peak, in it or after it. -/
theorem hour_cases {p : TouPlan} (h : p.peakStart < p.peakEnd) (hour : ℕ) :
    (hour < p.peakStart ∧ hour < p.peakEnd) ∨ (p.peakStart ≤ hour ∧ hour < p.peakEnd) ∨
      (p.peakStart ≤ hour ∧ p.peakEnd ≤ hour) := by
  omega

/-- Exactly one period covers an hour, and it has the price that was typed. -/
theorem one_period {p : TouPlan} (h : Accepted p) {ctx : DayContext} (hour : ctx.hour < 24) :
    ∃ t, (((touPeriods p).map periodOf).filter fun t => t.matches ctx) = [t] ∧
      t.usdPerKwh = priceRead (typedPrice p ctx) := by
  obtain ⟨hr, isSummer, isWeekend⟩ := ctx
  dsimp only at hour
  unfold touPeriods
  dsimp only
  rw [filter_matches]
  unfold typedPrice
  rcases hour_cases h.hours hr with ⟨h₁, h₂⟩ | ⟨h₁, h₂⟩ | ⟨h₁, h₂⟩
  · have h₁' : ¬p.peakStart ≤ hr := Nat.not_le.mpr h₁
    have h₂' : ¬p.peakEnd ≤ hr := Nat.not_le.mpr h₂
    cases hs : p.seasons with
    | none => cases isWeekend <;> simp [Period.matches, periodOf, h₁, h₁', h₂']
    | some s =>
        cases isSummer <;> cases isWeekend <;>
          simp [Period.matches, periodOf, h₁, h₁', h₂']
  · have h₁' : ¬hr < p.peakStart := Nat.not_lt.mpr h₁
    have h₂' : ¬p.peakEnd ≤ hr := Nat.not_le.mpr h₂
    cases hs : p.seasons with
    | none => cases isWeekend <;> simp [Period.matches, periodOf, h₁, h₂, h₁', h₂']
    | some s =>
        cases isSummer <;> cases isWeekend <;>
          simp [Period.matches, periodOf, h₁, h₂, h₁', h₂']
  · have h₁' : ¬hr < p.peakStart := Nat.not_lt.mpr h₁
    have h₂' : ¬hr < p.peakEnd := Nat.not_lt.mpr h₂
    cases hs : p.seasons with
    | none => cases isWeekend <;> simp [Period.matches, periodOf, hour, h₂, h₁', h₂']
    | some s =>
        cases isSummer <;> cases isWeekend <;>
          simp [Period.matches, periodOf, hour, h₂, h₁', h₂']

/-- Every hour of an accepted plan has a price. -/
theorem Accepted.typedPrice {p : TouPlan} (h : Accepted p) (ctx : DayContext) :
    Priced (typedPrice p ctx) := by
  unfold TouPlans.typedPrice
  split
  · split
    · rename_i s hs
      split
      · split
        · exact h.weekendPeak
        · exact h.onPeak
      · exact h.winterPeak s hs
    · split
      · exact h.weekendPeak
      · exact h.onPeak
  · exact h.offPeak

/-- A plan that passes the check, written as a file and read back, has exactly one period for
every hour, season and kind of day, with the price that was typed for it to six decimals; that is
the price of the hour. Summer has the months that were typed. -/
theorem tou_prices_as_typed (display : Double → String)
    (readToml : String → Option (List Toml.Section))
    (correct : ∀ lines, Toml.Valid lines → readToml (Toml.text lines) = some (Toml.meaning lines))
    {p : TouPlan} (accepted : checkTou display p = .ok ()) {today tool : String}
    (htoday : Printable today) (htool : Printable tool) :
    ∃ table periods, parseRatesFile readToml (renderTouToml p today tool) = some table ∧
      table.plan = .timeOfUse (summerMonths p).1 (summerMonths p).2 [] periods ∧
      ∀ ctx : DayContext, ctx.hour < 24 → ∃ v t, typedPrice p ctx = .finite v ∧
        (periods.filter fun t => t.matches ctx) = [t] ∧ t.usdPerKwh = toSixDecimals v ∧
        table.priceFor ctx = some (toSixDecimals v, t.name) := by
  have h := accepted_of_checkTou accepted
  obtain ⟨f, read, plan, _⟩ := read_renderTouToml correct h htoday htool
  refine ⟨newRateTable f, (touPeriods p).map periodOf, ?_, plan, ?_⟩
  · unfold parseRatesFile
    rw [read]
    rfl
  · intro ctx hour
    obtain ⟨t, only, price⟩ := one_period h hour
    obtain ⟨v, _, typed⟩ := h.typedPrice ctx
    rw [typed] at price
    refine ⟨v, t, typed, only, price, ?_⟩
    -- the only period that matches is the first
    have first : ((touPeriods p).map periodOf).find? (fun t => t.matches ctx) = some t := by
      rw [← List.head?_filter, only]
      rfl
    have table_plan : (newRateTable f).plan = f.plan := rfl
    unfold RateTable.priceFor
    rw [table_plan, plan]
    dsimp only
    rw [first, Option.map_some, price]
    rfl

/-- A plan with seasons and a peak in the evening. -/
def eveningPeak : TouPlan :=
  { onPeak := .finite (52 / 100), peakStart := 16, peakEnd := 21, offPeak := .finite (31 / 100),
    weekendPeak := .finite (1 / 128), seasons := some ⟨6, 10, .finite (4 / 10)⟩,
    fixedUsdPerDay := .finite (1 / 4) }

/-- A price with more decimals than are written is rounded. -/
theorem evening_peak_as_typed :
    ∃ table, parseRatesFile Toml.read (renderTouToml eveningPeak "2026-09-24" "lss-collector") =
        some table ∧
      (table.priceFor ⟨20, true, true⟩).map Prod.fst = some (7812 / 1000000) := by
  have accepted : checkTou (fun _ => "") eveningPeak = .ok () := by decide +kernel
  have htoday : Printable "2026-09-24" := by decide
  have htool : Printable "lss-collector" := by decide
  obtain ⟨table, periods, read, _, prices⟩ := tou_prices_as_typed (fun _ => "") Toml.read
    (fun _ h => Toml.read_text h.wellFormed) accepted htoday htool
  refine ⟨table, read, ?_⟩
  obtain ⟨v, t, typed, _, _, price⟩ := prices ⟨20, true, true⟩ (by decide)
  have weekend : typedPrice eveningPeak ⟨20, true, true⟩ = .finite (1 / 128) := rfl
  obtain rfl : 1 / 128 = v := Double.finite.inj (weekend.symm.trans typed)
  have rounded : toSixDecimals (1 / 128) = 7812 / 1000000 := by decide +kernel
  rw [price, rounded]
  rfl

end Lss.Analysis.TouPlans
