import Mathlib.Data.List.DropRight
import Lss.Library.Toml
import Lss.Model.Incidents
import Lss.Model.Number
import Lss.Model.Rates

/-!
# The file of prices

Setup asks for a time-of-use plan, checks it and writes it as a file of prices; the collector
reads the file when it starts. The reader of the file format is a parameter: it turns a text into
the sections of a document.
-/

set_option autoImplicit false

namespace Lss.Model

open Lss.Library

/-! ## What is typed -/

/-- A floating-point number as it may be typed. -/
inductive Double where
  | finite (v : ℚ)
  | infinite (negative : Bool)
  | notANumber
deriving DecidableEq

/-- A finite number of which something holds. -/
def Double.within (p : ℚ → Prop) [DecidablePred p] : Double → Bool
  | finite v => p v
  | infinite _ => false
  | notANumber => false

/-- Summer lasts from its first month up to its last, which is not in it; the rest is winter.
SOURCE: lss-core/src/cost_setup.rs:353-359 -/
structure Seasons where
  summerStart : ℕ
  summerEnd : ℕ
  winterPeak : Double
deriving DecidableEq

/-- One peak window on weekdays, its own price on weekends and holidays in the same hours,
off-peak the rest.
SOURCE: lss-core/src/cost_setup.rs:340-351 -/
structure TouPlan where
  onPeak : Double
  /-- local hour, inclusive -/
  peakStart : ℕ
  /-- local hour, exclusive -/
  peakEnd : ℕ
  offPeak : Double
  /-- weekends and holidays, during the peak hours -/
  weekendPeak : Double
  seasons : Option Seasons
  /-- 0 when there is none -/
  fixedUsdPerDay : Double
deriving DecidableEq

section Check

-- the shortest text that reads back as the number
variable (display : Double → String)

def checkPrice (v : Double) (what : String) : Except String Unit :=
  if v.within fun v => 0 < v ∧ v < 10 then .ok ()
  else .error ("the " ++ what ++ " price must be a $/kWh above 0 and below 10 (got " ++ display v ++
    ")")

def checkSeasons : Option Seasons → Except String Unit
  | none => .ok ()
  | some s => do
    checkPrice display s.winterPeak "winter on-peak"
    if ¬(1 ≤ s.summerStart ∧ s.summerStart ≤ 12) ∨ ¬(1 ≤ s.summerEnd ∧ s.summerEnd ≤ 12) ∨
        s.summerEnd ≤ s.summerStart then
      .error ("summer runs from its first month up to (not including) its last, both 1-12, " ++
        "first < last (got " ++ toString s.summerStart ++ "-" ++ toString s.summerEnd ++ ")")
    else .ok ()

/-- Whether every hour of the plan can be priced, or what to change.
SOURCE: lss-core/src/cost_setup.rs:362-383 -/
def checkTou (p : TouPlan) : Except String Unit := do
  checkPrice display p.onPeak "on-peak"
  checkPrice display p.offPeak "off-peak"
  checkPrice display p.weekendPeak "weekend/holiday"
  if 23 < p.peakStart ∨ p.peakEnd = 0 ∨ 24 < p.peakEnd then
    .error ("hours are 0-23 for the start and 1-24 for the end (got " ++ toString p.peakStart ++
      "-" ++ toString p.peakEnd ++ ")")
  else if p.peakEnd ≤ p.peakStart then
    .error ("the peak must end after it starts on the same day (got " ++ toString p.peakStart ++
      ":00 to " ++ toString p.peakEnd ++ ":00); a window across midnight is not supported here - " ++
      "edit rates.toml by hand for that")
  else do
    checkSeasons display p.seasons
    if p.fixedUsdPerDay.within fun v => 0 ≤ v ∧ v < 100 then .ok ()
    else .error ("the fixed daily charge must be 0 or more dollars a day (got " ++
      display p.fixedUsdPerDay ++ ")")

end Check

/-! ## What is written -/

/-- A price with as many of six decimals as it needs.
SOURCE: lss-core/src/cost_setup.rs:313-317 -/
def fmtRate : Double → String
  | .finite v =>
    let s := (fixedDecimals 6 v).toList.rdropWhile (· = '0')
    String.ofList (if s.getLast? = some '.' then s ++ ['0'] else s)
  | .infinite negative => if negative then "-inf" else "inf"
  | .notANumber => "NaN"

/-- At least four hexadecimal digits. -/
def upperHex4 (n : ℕ) : List Char :=
  let digits := (Nat.toDigits 16 n).map Char.toUpper
  List.replicate (4 - digits.length) '0' ++ digits

def isControl (c : Char) : Bool := c.toNat < 32 || (127 ≤ c.toNat && c.toNat < 160)

/-- SOURCE: lss-core/src/cost_setup.rs:322-328 -/
def tomlChar (c : Char) : List Char :=
  if c = '"' then ['\\', '"']
  else if c = '\\' then ['\\', '\\']
  else if c = '\n' then ['\\', 'n']
  else if isControl c then '\\' :: 'u' :: upperHex4 c.toNat
  else [c]

/-- A text between quotes.
SOURCE: lss-core/src/cost_setup.rs:319-332 -/
def tomlStr (s : String) : String := String.ofList ('"' :: s.toList.flatMap tomlChar ++ ['"'])

/-- Where a typed plan came from.
SOURCE: lss-core/src/cost_setup.rs:386-388 -/
def touSourceLabel (today : String) : String :=
  "time-of-use, entered by hand (" ++ today ++ ")"

/-- A period that will be written. -/
structure TouPeriod where
  name : String
  usd : Double
  season : String
  dayKind : String
  startHour : ℕ
  endHour : ℕ

/-- The periods of a plan, none of them empty.
SOURCE: lss-core/src/cost_setup.rs:393-413 -/
def touPeriods (p : TouPlan) : List TouPeriod :=
  let a := p.peakStart
  let b := p.peakEnd
  let summer := if p.seasons.isSome then "summer" else "any"
  let pre := if p.seasons.isSome then "summer_" else ""
  let spans : List TouPeriod :=
    [⟨pre ++ "on_peak", p.onPeak, summer, "weekday", a, b⟩,
      ⟨pre ++ "off_peak", p.offPeak, summer, "weekday", 0, a⟩,
      ⟨pre ++ "off_peak", p.offPeak, summer, "weekday", b, 24⟩,
      ⟨pre ++ "weekend_peak", p.weekendPeak, summer, "weekend_or_holiday", a, b⟩,
      ⟨pre ++ "off_peak", p.offPeak, summer, "weekend_or_holiday", 0, a⟩,
      ⟨pre ++ "off_peak", p.offPeak, summer, "weekend_or_holiday", b, 24⟩] ++
    match p.seasons with
    | some s =>
      [⟨"winter_on_peak", s.winterPeak, "winter", "any", a, b⟩,
        ⟨"winter_off_peak", p.offPeak, "winter", "any", 0, a⟩,
        ⟨"winter_off_peak", p.offPeak, "winter", "any", b, 24⟩]
    | none => []
  spans.filter fun span => span.startHour < span.endHour

/-- SOURCE: lss-core/src/cost_setup.rs:431-433 -/
def renderPeriod (t : TouPeriod) : String :=
  "\n[[plan.periods]]\nname = " ++ tomlStr t.name ++ "\nusd_per_kwh = " ++ fmtRate t.usd ++
    "\nseason = \"" ++ t.season ++ "\"\nday_kind = \"" ++ t.dayKind ++ "\"\nstart_hour = " ++
    toString t.startHour ++ "\nend_hour = " ++ toString t.endHour ++ "\n"

/-- The months of summer, or two that are not used.
SOURCE: lss-core/src/cost_setup.rs:414 -/
def summerMonths (p : TouPlan) : ℕ × ℕ :=
  match p.seasons with
  | some s => (s.summerStart, s.summerEnd)
  | none => (6, 10)

/-- The file of a typed plan.
SOURCE: lss-core/src/cost_setup.rs:392-435 -/
def renderTouToml (p : TouPlan) (today tool : String) : String :=
  "# lss electricity cost - a time-of-use plan typed into " ++ tool ++ " on " ++ today ++ ".\n" ++
  "# This file is YOURS: re-run `lss-collector cost-setup` to change it, or edit it by hand\n" ++
  "# (packaging/rates.toml.example shows every key). Restart the collector after.\n" ++
  "name = \"Time-of-use (entered by hand)\"\n" ++
  ("effective_date = " ++ tomlStr today ++ "\n") ++
  ("source = " ++ tomlStr (touSourceLabel today) ++ "\n") ++
  ("source_detail = " ++ tomlStr ("typed by hand during setup: on-peak " ++ toString p.peakStart ++
    "-" ++ toString p.peakEnd ++ "h weekdays") ++ "\n") ++
  (if p.fixedUsdPerDay.within fun v => 0 < v then
    "fixed_usd_per_day = " ++ fmtRate p.fixedUsdPerDay ++ "\n" else "") ++
  "\n[plan]\nkind = \"time_of_use\"\n" ++
  (if p.seasons.isNone then
    "# no seasons: every period below is season = \"any\", so these two months are not used\n"
    else "") ++
  ("summer_start_month = " ++ toString (summerMonths p).1 ++ "\nsummer_end_month = " ++
    toString (summerMonths p).2 ++ "\n") ++
  ("holidays = []  # your utility's own holiday dates (\"YYYY-MM-DD\"): weekend prices apply " ++
    "on them\n") ++
  String.join ((touPeriods p).map renderPeriod)

/-! ## What is read -/

/-- The file as it is written.
SOURCE: lss-core/src/rates.rs:304-328 -/
structure RatesFile where
  name : String
  effectiveDate : String
  fixedUsdPerDay : Option ℚ
  unresolvedUsdPerKwh : Option ℚ
  plan : RatePlan
  source : Option String
  sourceDetail : Option String
  sourceUrl : Option String
  country : Option String
  currency : Option String

/-- The keys of a section. -/
abbrev Pairs := List (String × Toml.Data)

namespace Pairs

def field (pairs : Pairs) (key : String) : Option Toml.Data :=
  (pairs.find? fun p => p.1 = key).map Prod.snd

def text : Toml.Data → Option String
  | .str s => some s
  | _ => none

/-- A floating-point field takes whole numbers too. -/
def number : Toml.Data → Option ℚ
  | .decimal v => some v
  | .int n => some n
  | _ => none

/-- An unsigned number of 32 bits. -/
def count : Toml.Data → Option ℕ
  | .int n => if n < 2 ^ 32 then some n else none
  | _ => none

/-- A list of texts, of which only the empty one is read here. -/
def texts : Toml.Data → Option (List String)
  | .empty => some []
  | _ => none

/-- A field that must be there. -/
def required {α : Type} (pairs : Pairs) (key : String) (as : Toml.Data → Option α) : Option α :=
  (pairs.field key).bind as

/-- A field that may be missing, but not be something else. -/
def optional {α : Type} (pairs : Pairs) (key : String) (as : Toml.Data → Option α) :
    Option (Option α) :=
  match pairs.field key with
  | none => some none
  | some data => (as data).map some

end Pairs

/-- SOURCE: lss-core/src/rates.rs:21-32 -/
def decodePeriod (pairs : Pairs) : Option Period := do
  let name ← pairs.required "name" Pairs.text
  let usdPerKwh ← pairs.required "usd_per_kwh" Pairs.number
  let season ← pairs.required "season" Pairs.text
  let dayKind ← pairs.required "day_kind" Pairs.text
  let startHour ← pairs.required "start_hour" Pairs.count
  let endHour ← pairs.required "end_hour" Pairs.count
  some ⟨name, usdPerKwh, season, dayKind, startHour, endHour⟩

/-- The plan, told apart by its kind, its periods the elements of their own array.
SOURCE: lss-core/src/rates.rs:65-79 -/
def decodePlan (pairs : Pairs) (periods : List Pairs) : Option RatePlan := do
  let kind ← pairs.required "kind" Pairs.text
  if kind = "flat" then
    let usdPerKwh ← pairs.required "usd_per_kwh" Pairs.number
    some (.flat usdPerKwh)
  else if kind = "time_of_use" then
    let summerStart ← pairs.required "summer_start_month" Pairs.count
    let summerEnd ← pairs.required "summer_end_month" Pairs.count
    let holidays ← pairs.required "holidays" Pairs.texts
    if periods = [] then none
    else
      let periods ← periods.mapM decodePeriod
      some (.timeOfUse summerStart summerEnd holidays periods)
  else none

/-- The pairs below the headers that are as asked. -/
def below (sections : List Toml.Section) (h : Toml.Header) : List Pairs :=
  (sections.filter fun s => s.header = h).map Toml.Section.pairs

/-- SOURCE: lss-core/src/rates.rs:304-328 -/
def decodeRatesFile (sections : List Toml.Section) : Option RatesFile := do
  let root ← (below sections .root).head?
  let name ← root.required "name" Pairs.text
  let effectiveDate ← root.required "effective_date" Pairs.text
  let fixedUsdPerDay ← root.optional "fixed_usd_per_day" Pairs.number
  let unresolvedUsdPerKwh ← root.optional "unresolved_usd_per_kwh" Pairs.number
  let planPairs ← (below sections (.table ["plan"])).head?
  let plan ← decodePlan planPairs (below sections (.element ["plan", "periods"]))
  let source ← root.optional "source" Pairs.text
  let sourceDetail ← root.optional "source_detail" Pairs.text
  let sourceUrl ← root.optional "source_url" Pairs.text
  let country ← root.optional "country" Pairs.text
  let currency ← root.optional "currency" Pairs.text
  some ⟨name, effectiveDate, fixedUsdPerDay, unresolvedUsdPerKwh, plan, source, sourceDetail,
    sourceUrl, country, currency⟩

/-- A whole number below a limit, with a plus or without. -/
def parseCount (limit : ℕ) (text : List Char) : Option ℕ :=
  let digits := if text.head? = some '+' then text.tail else text
  if digits = [] ∨ ¬digits.all Char.isDigit then none
  else (some (Nat.ofDigitChars 10 digits 0)).filter fun n => n < limit

theorem parseCount_lt {limit n : ℕ} {text : List Char} (read : parseCount limit text = some n) :
    n < limit := by
  unfold parseCount at read
  dsimp only at read
  generalize (if text.head? = some '+' then text.tail else text) = digits at read
  split at read
  · cases read
  · exact of_decide_eq_true (Option.filter_eq_some_iff.mp read).2

/-- A number that fits is read as it is printed. -/
theorem parseCount_toDigits {limit n : ℕ} (fits : n < limit) :
    parseCount limit (Nat.toDigits 10 n) = some n := by
  have digits : (Nat.toDigits 10 n).all Char.isDigit = true := by
    rw [List.all_eq_true]
    exact fun c hc => Nat.isDigit_of_mem_toDigits (by omega) (by omega) hc
  have no_plus : (Nat.toDigits 10 n).head? ≠ some '+' := by
    intro plus
    have digit := List.all_eq_true.mp digits '+' (List.mem_of_head? plus)
    cases digit
  unfold parseCount
  dsimp only
  rw [if_neg no_plus, if_neg (by simp [Nat.toDigits_ne_nil, digits]),
    Nat.ofDigitChars_ten_toDigits, Option.filter_some, if_pos (by simpa using fits)]

/-- A day as year, month and day.
SOURCE: lss-core/src/rates.rs:105-112 -/
def parseYmd (s : String) : Option (ℤ × ℕ × ℕ) :=
  match (trim s).toList.splitOn '-' with
  | [y, m, d] => do
    let y ← parseCount (2 ^ 31) y
    let m ← parseCount (2 ^ 32) m
    let d ← parseCount (2 ^ 32) d
    if (1 ≤ m ∧ m ≤ 12) ∧ 1 ≤ d ∧ d ≤ 31 then some (y, m, d) else none
  | _ => none

/-- The table with its holidays read; what is not a day is dropped.
SOURCE: lss-core/src/rates.rs:117-130 -/
def newRateTable (f : RatesFile) : RateTable where
  name := f.name
  effectiveDate := f.effectiveDate
  plan := f.plan
  fixedUsdPerDay := f.fixedUsdPerDay
  unresolvedUsdPerKwh := f.unresolvedUsdPerKwh
  source := (f.source.map trim).filter fun s => s ≠ ""
  holidays := match f.plan with
    | .timeOfUse _ _ holidays _ => holidays.filterMap parseYmd
    | .flat _ => []

section Read

-- reads the file format
variable (readToml : String → Option (List Toml.Section))

/-- SOURCE: lss-core/src/rates.rs:331-333 -/
def readRatesFile (text : String) : Option RatesFile := (readToml text).bind decodeRatesFile

/-- SOURCE: lss-core/src/rates.rs:335-338 -/
def parseRatesFile (text : String) : Option RateTable := (readRatesFile readToml text).map newRateTable

end Read

end Lss.Model
