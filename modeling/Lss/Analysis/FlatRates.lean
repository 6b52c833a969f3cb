import Lss.Analysis.TouPlans
import Lss.Model.HomeRates

/-!
# The file of a flat price

The file that is written for a price and where it came from is a document; read back, it has the
price to six decimals.
-/

set_option autoImplicit false

namespace Lss.Analysis.FlatRates

open Lss.Model Lss.Library TouPlans

/-! ## The lines of the file -/

/-- The keys that tell where a rate came from. -/
def originPairs : RateOrigin → List (String × String)
  | .stateAverage _ _ => [("source_url", eiaUrl)]
  | .manual => []
  | .manualAbroad country currency =>
    ("country", country) :: currency.toList.map fun c => ("currency", c)

/-- The keys above the plan; all of them are texts. -/
def headPairs (origin : RateOrigin) (today : String) : List (String × String) :=
  [("name", rateName origin), ("effective_date", rateEffective origin today),
    ("source", sourceLabel origin today), ("source_detail", rateDetail origin)] ++
  originPairs origin

def textLines (pairs : List (String × String)) : List Toml.Line :=
  pairs.map fun p => pairLine p.1 (strValue p.2)

def noteLines : RateOrigin → List Toml.Line
  | .stateAverage _ _ =>
    [.comment
        "# A state AVERAGE is a starting point, not your bill: your own utility's rate - and any".toList,
      .comment ("# time-of-use plan, where peak hours can cost double - is more accurate. " ++
        "Replace it when you can.").toList]
  | _ => []

def remarkLines (origin : RateOrigin) (today tool : String) : List Toml.Line :=
  [.comment ("# lss electricity cost - written by " ++ tool ++ " on " ++ today ++ ".").toList,
    .comment
      "# This file is YOURS: re-run `lss-collector cost-setup` to change it, or edit it by hand".toList,
    .comment
      "# (packaging/rates.toml.example shows a full time-of-use plan). Restart the collector after.".toList] ++
  noteLines origin

def planLines (usdPerKwh : ℚ) : List Toml.Line :=
  [.comment [], .table ["plan".toList], pairLine "kind" (strValue "flat"),
    pairLine "usd_per_kwh" (rateValue (.finite usdPerKwh))]

def flatLines (usdPerKwh : ℚ) (origin : RateOrigin) (today tool : String) : List Toml.Line :=
  remarkLines origin today tool ++ textLines (headPairs origin today) ++ planLines usdPerKwh

/-! ## Written -/

theorem textLines_cons (key s : String) (pairs : List (String × String)) :
    Toml.text (textLines ((key, s) :: pairs)) =
      key ++ " = " ++ tomlStr s ++ "\n" ++ Toml.text (textLines pairs) := by
  show Toml.text (pairLine key (strValue s) :: textLines pairs) = _
  rw [text_cons, pairLine_text, ← tomlStr_eq]

theorem text_nil : Toml.text [] = "" := rfl

theorem originPairs_text (origin : RateOrigin) :
    Toml.text (textLines (originPairs origin)) = originKeys origin := by
  cases origin with
  | stateAverage code how =>
      have url : rateUrl (.stateAverage code how) = eiaUrl := rfl
      have some_url : eiaUrl ≠ "" := by decide
      have key : "source_url = " = "source_url" ++ " = " := rfl
      unfold originKeys originPairs
      rw [textLines_cons, url, if_neg some_url, key]
      rfl
  | manual => rfl
  | manualAbroad country currency =>
      have key₁ : "country = " = "country" ++ " = " := rfl
      have key₂ : "currency = " = "currency" ++ " = " := rfl
      have no_url : (if rateUrl (.manualAbroad country currency) = "" then ""
          else "source_url = " ++ tomlStr (rateUrl (.manualAbroad country currency)) ++ "\n") =
          "" := rfl
      unfold originKeys originPairs
      rw [textLines_cons, no_url, String.empty_append, key₁]
      cases currency with
      | none => rfl
      | some c =>
          have last : Toml.text (textLines []) = "" := rfl
          show _ ++ Toml.text (textLines [("currency", c)]) = _
          rw [textLines_cons, last, String.append_empty, ← key₂]

theorem remarkLines_text (origin : RateOrigin) (today tool : String) :
    Toml.text (remarkLines origin today tool) =
      "# lss electricity cost - written by " ++ tool ++ " on " ++ today ++ ".\n" ++
      "# This file is YOURS: re-run `lss-collector cost-setup` to change it, or edit it by hand\n" ++
      "# (packaging/rates.toml.example shows a full time-of-use plan). Restart the collector after.\n" ++
      averageNote origin := by
  have end₁ : ".\n" = "." ++ "\n" := rfl
  have end₂ :
      "# This file is YOURS: re-run `lss-collector cost-setup` to change it, or edit it by hand\n" =
      "# This file is YOURS: re-run `lss-collector cost-setup` to change it, or edit it by hand" ++
        "\n" := rfl
  have end₃ :
      "# (packaging/rates.toml.example shows a full time-of-use plan). Restart the collector after.\n" =
      "# (packaging/rates.toml.example shows a full time-of-use plan). Restart the collector after." ++
        "\n" := rfl
  have note : Toml.text (noteLines origin) = averageNote origin := by
    cases origin with
    | stateAverage code how =>
        have end₁ :
            "# A state AVERAGE is a starting point, not your bill: your own utility's rate - and any\n" =
            "# A state AVERAGE is a starting point, not your bill: your own utility's rate - and any" ++
              "\n" := rfl
        have end₂ : "Replace it when you can.\n" = "Replace it when you can." ++ "\n" := rfl
        unfold noteLines averageNote
        dsimp only
        rw [text_cons, text_cons, comment_text, comment_text, text_nil, end₁, end₂]
        simp only [String.append_empty, String.append_assoc]
    | manual => rfl
    | manualAbroad country currency => rfl
  unfold remarkLines
  rw [text_append, note, end₁, end₂, end₃]
  simp only [text_cons, comment_text, text_nil, String.append_assoc, String.empty_append]

theorem planLines_text {usdPerKwh : ℚ} (h : 0 ≤ usdPerKwh) :
    Toml.text (planLines usdPerKwh) = "\n[plan]\nkind = \"flat\"\n" ++
      ("usd_per_kwh = " ++ fmtRate (.finite usdPerKwh) ++ "\n") := by
  have head : "\n[plan]\nkind = \"flat\"\n" =
      "" ++ "\n" ++ "[plan]" ++ "\n" ++ "kind" ++ " = " ++ ("\"" ++ "flat" ++ "\"") ++ "\n" := rfl
  have key : "usd_per_kwh = " = "usd_per_kwh" ++ " = " := rfl
  have plain : PlainText "flat" := by decide
  have blank : String.ofList (Toml.Line.comment []).text = "" := rfl
  have table : String.ofList (Toml.Line.table ["plan".toList]).text = "[plan]" := rfl
  unfold planLines
  rw [head, key, ← tomlStr_plain plain, (rateValue_spec h).2.2]
  simp only [text_cons, blank, table, pairLine_text, ← tomlStr_eq, text_nil, String.append_assoc,
    String.append_empty, String.empty_append]

/-- The file is the text of its lines. -/
theorem renderRatesToml_eq {usdPerKwh : ℚ} (h : 0 ≤ usdPerKwh) (origin : RateOrigin)
    (today tool : String) :
    renderRatesToml usdPerKwh origin today tool =
      Toml.text (flatLines usdPerKwh origin today tool) := by
  have head : Toml.text (textLines (headPairs origin today)) =
      ("name = " ++ tomlStr (rateName origin) ++ "\n") ++
      ("effective_date = " ++ tomlStr (rateEffective origin today) ++ "\n") ++
      ("source = " ++ tomlStr (sourceLabel origin today) ++ "\n") ++
      ("source_detail = " ++ tomlStr (rateDetail origin) ++ "\n") ++ originKeys origin := by
    have key₁ : "name = " = "name" ++ " = " := rfl
    have key₂ : "effective_date = " = "effective_date" ++ " = " := rfl
    have key₃ : "source = " = "source" ++ " = " := rfl
    have key₄ : "source_detail = " = "source_detail" ++ " = " := rfl
    unfold headPairs
    simp only [List.cons_append, List.nil_append, textLines_cons, originPairs_text]
    rw [key₁, key₂, key₃, key₄]
    simp only [String.append_assoc]
  unfold flatLines renderRatesToml
  rw [text_append, text_append, remarkLines_text, head, planLines_text h]
  simp only [String.append_assoc]

/-! ## Read back -/

def textData (pairs : List (String × String)) : Pairs := pairs.map fun p => (p.1, .str p.2)

def planPairs (usdPerKwh : ℚ) : Pairs :=
  [("kind", .str "flat"), ("usd_per_kwh", (rateValue (.finite usdPerKwh)).data)]

theorem sections_textLines (h : Toml.Header) (before : Pairs) (pairs : List (String × String))
    (rest : List Toml.Item) :
    Toml.sections h before ((textLines pairs).map Toml.Line.item ++ rest) =
      Toml.sections h (before ++ textData pairs) rest := by
  induction pairs generalizing before with
  | nil =>
      show Toml.sections h before rest = Toml.sections h (before ++ []) rest
      rw [List.append_nil]
  | cons p pairs ih =>
      have item : (pairLine p.1 (strValue p.2)).item = .pair p.1 (.str p.2) := by
        rw [pairLine_item, strValue_data]
      show Toml.sections h before ((pairLine p.1 (strValue p.2)).item ::
        ((textLines pairs).map Toml.Line.item ++ rest)) = _
      rw [item, Toml.sections, ih, List.append_assoc]
      rfl

theorem sections_remarkLines (origin : RateOrigin) (today tool : String) (rest : List Toml.Item) :
    Toml.sections .root [] ((remarkLines origin today tool).map Toml.Line.item ++ rest) =
      Toml.sections .root [] rest := by
  cases origin with
  | stateAverage code how => rfl
  | manual => rfl
  | manualAbroad country currency => rfl

/-- The sections of the file: the head and the plan. -/
theorem meaning_flatLines (usdPerKwh : ℚ) (origin : RateOrigin) (today tool : String) :
    Toml.meaning (flatLines usdPerKwh origin today tool) =
      [⟨.root, textData (headPairs origin today)⟩, ⟨.table ["plan"], planPairs usdPerKwh⟩] := by
  have plan : (planLines usdPerKwh).map Toml.Line.item =
      [.nothing, .header (.table ["plan"]), .pair "kind" (.str "flat"),
        .pair "usd_per_kwh" (rateValue (.finite usdPerKwh)).data] := by
    unfold planLines
    simp only [List.map_cons, List.map_nil, comment_item, plan_item, pairLine_item, strValue_data]
  unfold Toml.meaning flatLines
  rw [List.map_append, List.map_append, List.append_assoc, sections_remarkLines,
    sections_textLines, plan]
  rfl

def headKeys : List String :=
  ["name", "effective_date", "source", "source_detail", "source_url", "country", "currency"]

theorem keys_headPairs (origin : RateOrigin) (today : String) :
    ((headPairs origin today).map Prod.fst).Sublist headKeys := by
  cases origin with
  | stateAverage code how =>
      show ["name", "effective_date", "source", "source_detail", "source_url"].Sublist headKeys
      decide
  | manual =>
      show ["name", "effective_date", "source", "source_detail"].Sublist headKeys
      decide
  | manualAbroad country currency =>
      cases currency with
      | none =>
          show ["name", "effective_date", "source", "source_detail", "country"].Sublist headKeys
          decide
      | some c =>
          show ["name", "effective_date", "source", "source_detail", "country",
            "currency"].Sublist headKeys
          decide

theorem bare_headKeys : ∀ key ∈ headKeys, Toml.Bare key.toList := by
  have chars : ∀ key ∈ headKeys, key.toList ≠ [] ∧ key.toList.all Toml.bare = true := by decide
  intro key hkey
  obtain ⟨some_char, all⟩ := chars key hkey
  exact ⟨some_char, List.all_eq_true.mp all⟩

theorem flatLines_wellFormed {usdPerKwh : ℚ} (h : 0 ≤ usdPerKwh) (origin : RateOrigin)
    {today tool : String} (htoday : Printable today) (htool : Printable tool) :
    ∀ l ∈ flatLines usdPerKwh origin today tool, l.WellFormed := by
  have written : Printable ("# lss electricity cost - written by " ++ tool ++ " on " ++ today ++
      ".") :=
    printable_append (printable_append (printable_append (printable_append (by decide) htool)
      (by decide)) htoday) (by decide)
  have first : Toml.Trailing ("# lss electricity cost - written by " ++ tool ++ " on " ++ today ++
      ".").toList := by
    refine ⟨Or.inr ?_, written⟩
    simp
  intro l hl
  unfold flatLines remarkLines at hl
  rcases List.mem_append.mp hl with hl | hl
  · rcases List.mem_append.mp hl with hl | hl
    · rcases List.mem_append.mp hl with hl | hl
      · simp only [List.mem_cons, List.not_mem_nil, or_false] at hl
        rcases hl with rfl | rfl | rfl
        · exact first
        · exact .of_text rfl (by decide) (by decide)
        · exact .of_text rfl (by decide) (by decide)
      · cases origin with
        | stateAverage code how =>
            unfold noteLines at hl
            simp only [List.mem_cons, List.not_mem_nil, or_false] at hl
            rcases hl with rfl | rfl
            · exact .of_text rfl (by decide) (by decide)
            · exact .of_texts rfl rfl (by decide) (by decide)
        | manual => exact absurd hl List.not_mem_nil
        | manualAbroad country currency => exact absurd hl List.not_mem_nil
    · obtain ⟨p, hp, rfl⟩ := List.mem_map.mp hl
      have key := (keys_headPairs origin today).subset (List.mem_map_of_mem hp)
      exact pairLine_wellFormed (bare_headKeys p.1 key) (strValue_wellFormed p.2)
  · unfold planLines at hl
    simp only [List.mem_cons, List.not_mem_nil, or_false] at hl
    rcases hl with rfl | rfl | rfl | rfl
    · exact ⟨Or.inl rfl, fun _ hc => absurd hc List.not_mem_nil⟩
    · refine ⟨by simp, ?_⟩
      intro key hkey
      rw [List.mem_singleton.mp hkey]
      exact ⟨by decide, by decide⟩
    · exact pairLine_wellFormed ⟨by decide, by decide⟩ (strValue_wellFormed _)
    · exact pairLine_wellFormed ⟨by decide, by decide⟩ (rateValue_spec h).1

/-- The file is a document: nothing in it is defined twice. -/
theorem valid_flatLines {usdPerKwh : ℚ} (h : 0 ≤ usdPerKwh) (origin : RateOrigin)
    {today tool : String} (htoday : Printable today) (htool : Printable tool) :
    Toml.Valid (flatLines usdPerKwh origin today tool) where
  wellFormed := flatLines_wellFormed h origin htoday htool
  keys := by
    intro s hs
    rw [meaning_flatLines] at hs
    simp only [List.mem_cons, List.not_mem_nil, or_false] at hs
    rcases hs with rfl | rfl
    · have same : (textData (headPairs origin today)).map Prod.fst =
          (headPairs origin today).map Prod.fst := by
        unfold textData
        rw [List.map_map]
        rfl
      show ((textData (headPairs origin today)).map Prod.fst).Nodup
      rw [same]
      exact (keys_headPairs origin today).nodup (by decide)
    · show ["kind", "usd_per_kwh"].Nodup
      decide
  opened := by
    intro s hs pair hpair t ht hle
    rw [meaning_flatLines] at hs ht
    simp only [List.mem_cons, List.not_mem_nil, or_false] at hs ht
    have path : t.header.path <+: ["plan"] := by
      rcases ht with rfl | rfl
      · exact List.nil_prefix
      · exact List.prefix_refl _
    have hle := hle.trans path
    rcases hs with rfl | rfl
    · obtain ⟨p, hp, rfl⟩ := List.mem_map.mp hpair
      have key := (keys_headPairs origin today).subset (List.mem_map_of_mem hp)
      rw [Toml.Header.path, List.nil_append, List.cons_prefix_cons] at hle
      rw [hle.1] at key
      exact absurd key (by decide)
    · exact absurd hle.length_le (by simp [Toml.Header.path])
  tables := by
    rw [meaning_flatLines]
    exact List.nodup_singleton ["plan"]
  elements := by
    intro s hs t ht path hpath
    rw [meaning_flatLines] at hs
    simp only [List.mem_cons, List.not_mem_nil, or_false] at hs
    rcases hs with rfl | rfl
    · cases hpath
    · cases hpath

/-- Where the published figure is from, when it is one. -/
def urlOf : RateOrigin → Option String
  | .stateAverage _ _ => some eiaUrl
  | _ => none

/-- The country of a rate from abroad. -/
def countryOf : RateOrigin → Option String
  | .manualAbroad country _ => some country
  | _ => none

/-- The currency of a rate from abroad, when it was told. -/
def currencyOf : RateOrigin → Option String
  | .manualAbroad _ currency => currency
  | _ => none

/-- The file as it is read back. -/
def fileOf (usdPerKwh : ℚ) (origin : RateOrigin) (today : String) : RatesFile where
  name := rateName origin
  effectiveDate := rateEffective origin today
  fixedUsdPerDay := none
  unresolvedUsdPerKwh := none
  plan := .flat (toSixDecimals usdPerKwh)
  source := some (sourceLabel origin today)
  sourceDetail := some (rateDetail origin)
  sourceUrl := urlOf origin
  country := countryOf origin
  currency := currencyOf origin

theorem optional_missing {α : Type} (origin : RateOrigin) (today key : String)
    (h : key ∉ headKeys) (as : Toml.Data → Option α) :
    (textData (headPairs origin today)).optional key as = some none := by
  have absent : (textData (headPairs origin today)).find? (fun p => p.1 = key) = none := by
    rw [List.find?_eq_none]
    intro p hp he
    obtain ⟨q, hq, rfl⟩ := List.mem_map.mp hp
    have := (keys_headPairs origin today).subset (List.mem_map_of_mem hq)
    rw [of_decide_eq_true he] at this
    exact h this
  unfold Pairs.optional Pairs.field
  rw [absent]
  rfl

theorem decode_flatLines {usdPerKwh : ℚ} (h : 0 ≤ usdPerKwh) (origin : RateOrigin)
    (today tool : String) :
    decodeRatesFile (Toml.meaning (flatLines usdPerKwh origin today tool)) =
      some (fileOf usdPerKwh origin today) := by
  have root : (below (Toml.meaning (flatLines usdPerKwh origin today tool)) .root).head? =
      some (textData (headPairs origin today)) := by
    rw [meaning_flatLines, below_cons, if_pos rfl]
    rfl
  have plan : (below (Toml.meaning (flatLines usdPerKwh origin today tool))
      (.table ["plan"])).head? = some (planPairs usdPerKwh) := by
    rw [meaning_flatLines, below_cons, if_neg (by simp), below_cons, if_pos rfl]
    rfl
  have name : (textData (headPairs origin today)).required "name" Pairs.text =
      some (rateName origin) := rfl
  have date : (textData (headPairs origin today)).required "effective_date" Pairs.text =
      some (rateEffective origin today) := rfl
  have source : (textData (headPairs origin today)).optional "source" Pairs.text =
      some (some (sourceLabel origin today)) := rfl
  have detail : (textData (headPairs origin today)).optional "source_detail" Pairs.text =
      some (some (rateDetail origin)) := rfl
  -- the keys that are only there for some origins
  have url : (textData (headPairs origin today)).optional "source_url" Pairs.text =
      some (urlOf origin) := by
    cases origin with
    | stateAverage code how => rfl
    | manual => rfl
    | manualAbroad country currency =>
        cases currency with
        | none => rfl
        | some c => rfl
  have country : (textData (headPairs origin today)).optional "country" Pairs.text =
      some (countryOf origin) := by
    cases origin with
    | stateAverage code how => rfl
    | manual => rfl
    | manualAbroad country currency => rfl
  have currency : (textData (headPairs origin today)).optional "currency" Pairs.text =
      some (currencyOf origin) := by
    cases origin with
    | stateAverage code how => rfl
    | manual => rfl
    | manualAbroad country currency =>
        cases currency with
        | none => rfl
        | some c => rfl
  have decoded : ∀ periods, decodePlan (planPairs usdPerKwh) periods =
      some (.flat (toSixDecimals usdPerKwh)) := by
    intro periods
    have kind : (planPairs usdPerKwh).required "kind" Pairs.text = some "flat" := rfl
    have price : (planPairs usdPerKwh).required "usd_per_kwh" Pairs.number =
        some (toSixDecimals usdPerKwh) := by
      show Pairs.number (rateValue (.finite usdPerKwh)).data = _
      rw [(rateValue_spec h).2.1]
      rfl
    unfold decodePlan
    rw [kind, price]
    rfl
  unfold decodeRatesFile
  rw [root, plan]
  simp only [Option.bind_eq_bind, Option.bind_some]
  rw [name, date, optional_missing origin today "fixed_usd_per_day" (by decide),
    optional_missing origin today "unresolved_usd_per_kwh" (by decide), decoded, source, detail,
    url, country, currency]
  rfl

section Read

variable {readToml : String → Option (List Toml.Section)}
  (correct : ∀ lines, Toml.Valid lines → readToml (Toml.text lines) = some (Toml.meaning lines))
include correct

/-- The written file is read back as a whole, the price to six decimals. -/
theorem read_renderRatesToml {usdPerKwh : ℚ} (h : 0 ≤ usdPerKwh) (origin : RateOrigin)
    {today tool : String} (htoday : Printable today) (htool : Printable tool) :
    readRatesFile readToml (renderRatesToml usdPerKwh origin today tool) =
      some (fileOf usdPerKwh origin today) := by
  unfold readRatesFile
  rw [renderRatesToml_eq h, correct _ (valid_flatLines h origin htoday htool), Option.bind_some,
    decode_flatLines h]

/-- Whatever the texts of an origin are, they come back as they were. -/
theorem rates_file_keeps_its_texts {usdPerKwh : ℚ} (h : 0 ≤ usdPerKwh) (origin : RateOrigin)
    {today tool : String} (htoday : Printable today) (htool : Printable tool) :
    ∃ f, readRatesFile readToml (renderRatesToml usdPerKwh origin today tool) = some f ∧
      f.name = rateName origin ∧ f.source = some (sourceLabel origin today) ∧
      f.country = countryOf origin ∧ f.currency = currencyOf origin ∧
      f.plan = .flat (toSixDecimals usdPerKwh) :=
  ⟨_, read_renderRatesToml correct h origin htoday htool, rfl, rfl, rfl, rfl, rfl⟩

end Read

/-- A country that tries to end its quotes, its line and the file's comment. -/
def hostileOrigin : RateOrigin :=
  .manualAbroad "x\"\nname = \"y\" # \\" (some "\t\r\"EUR\u0000")

theorem hostile_texts_come_back :
    ∃ f, readRatesFile Toml.read (renderRatesToml (31 / 100) hostileOrigin "2026-09-24" "lss") =
        some f ∧
      f.name = rateName hostileOrigin ∧
      f.source = some (sourceLabel hostileOrigin "2026-09-24") ∧
      f.country = some "x\"\nname = \"y\" # \\" ∧ f.currency = some "\t\r\"EUR\u0000" ∧
      f.plan = .flat (31 / 100) := by
  have decimals : toSixDecimals (31 / 100) = 31 / 100 := by
    unfold toSixDecimals
    decide +kernel
  obtain ⟨f, read, name, source, country, currency, plan⟩ :=
    rates_file_keeps_its_texts (fun _ h => Toml.read_text h.wellFormed)
      (show (0 : ℚ) ≤ 31 / 100 by norm_num) hostileOrigin
      (show Printable "2026-09-24" by decide) (show Printable "lss" by decide)
  exact ⟨f, read, name, source, country, currency, plan.trans (by rw [decimals])⟩

end Lss.Analysis.FlatRates
