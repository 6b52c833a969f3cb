import Lss.Library.Lines
import Lss.Model.CostSetup
import Mathlib.Data.List.Infix

/-!
# A rate for the home

Three ways to a flat price of electricity: the average of a state, found by a ZIP code or by where
the internet address is, a price typed in dollars, and a price typed in another currency. The
numbers are exact.
-/

set_option autoImplicit false

namespace Lss.Model

open Lss.Library.Lines

/-! ## Tables -/

/-- SOURCE: lss-core/src/cost_tables.rs:35-36 -/
def eiaMonth : String := "2026-06"

/-- SOURCE: lss-core/src/cost_tables.rs:39 -/
def eiaSource : String :=
  "EIA Electric Power Monthly, Table 5.6.A (average residential price by state)"

/-- SOURCE: lss-core/src/cost_tables.rs:40 -/
def eiaUrl : String :=
  "https://www.eia.gov/electricity/monthly/epm_table_grapher.php?t=epmt_5_6_a"

/-- The average of each state in cents, and that of the country.
SOURCE: lss-core/src/cost_tables.rs:42-96 -/
def residentialCentsPerKwh : List (String × ℚ) :=
  [("AK", 28.21), ("AL", 16.40), ("AR", 14.12), ("AZ", 15.18), ("CA", 34.74), ("CO", 17.13),
    ("CT", 24.32), ("DC", 24.39), ("DE", 19.29), ("FL", 15.10), ("GA", 16.36), ("HI", 52.72),
    ("IA", 15.93), ("ID", 14.37), ("IL", 19.89), ("IN", 17.51), ("KS", 15.71), ("KY", 14.26),
    ("LA", 13.49), ("MA", 29.61), ("MD", 21.84), ("ME", 29.59), ("MI", 22.99), ("MN", 17.52),
    ("MO", 16.22), ("MS", 14.88), ("MT", 15.14), ("NC", 14.74), ("ND", 14.12), ("NE", 13.25),
    ("NH", 27.01), ("NJ", 24.95), ("NM", 15.06), ("NV", 13.11), ("NY", 29.49), ("OH", 19.19),
    ("OK", 14.33), ("OR", 16.32), ("PA", 21.73), ("RI", 29.23), ("SC", 15.55), ("SD", 15.36),
    ("TN", 14.07), ("TX", 15.94), ("US", 18.34), ("UT", 13.37), ("VA", 17.22), ("VT", 24.44),
    ("WA", 14.91), ("WI", 19.56), ("WV", 15.45), ("WY", 15.24)]

/-- SOURCE: lss-core/src/cost_setup.rs:19-41 -/
def places : List (String × String) :=
  [("AL", "Alabama"), ("AK", "Alaska"), ("AZ", "Arizona"), ("AR", "Arkansas"),
    ("CA", "California"), ("CO", "Colorado"), ("CT", "Connecticut"), ("DE", "Delaware"),
    ("DC", "District of Columbia"), ("FL", "Florida"), ("GA", "Georgia"), ("HI", "Hawaii"),
    ("ID", "Idaho"), ("IL", "Illinois"), ("IN", "Indiana"), ("IA", "Iowa"), ("KS", "Kansas"),
    ("KY", "Kentucky"), ("LA", "Louisiana"), ("ME", "Maine"), ("MD", "Maryland"),
    ("MA", "Massachusetts"), ("MI", "Michigan"), ("MN", "Minnesota"), ("MS", "Mississippi"),
    ("MO", "Missouri"), ("MT", "Montana"), ("NE", "Nebraska"), ("NV", "Nevada"),
    ("NH", "New Hampshire"), ("NJ", "New Jersey"), ("NM", "New Mexico"), ("NY", "New York"),
    ("NC", "North Carolina"), ("ND", "North Dakota"), ("OH", "Ohio"), ("OK", "Oklahoma"),
    ("OR", "Oregon"), ("PA", "Pennsylvania"), ("RI", "Rhode Island"), ("SC", "South Carolina"),
    ("SD", "South Dakota"), ("TN", "Tennessee"), ("TX", "Texas"), ("UT", "Utah"),
    ("VT", "Vermont"), ("VA", "Virginia"), ("WA", "Washington"), ("WV", "West Virginia"),
    ("WI", "Wisconsin"), ("WY", "Wyoming"), ("PR", "Puerto Rico"), ("VI", "U.S. Virgin Islands"),
    ("GU", "Guam"), ("AS", "American Samoa"), ("MP", "Northern Mariana Islands"), ("PW", "Palau"),
    ("FM", "Micronesia"), ("MH", "Marshall Islands"),
    ("AA", "a military (APO/FPO) address, Americas"),
    ("AE", "a military (APO/FPO) address, Europe/Middle East/Africa"),
    ("AP", "a military (APO/FPO) address, Pacific")]

/-- SOURCE: lss-core/src/country_rates.rs:12-37 -/
def countries : List (String × String) :=
  [("AT", "Austria"), ("AU", "Australia"), ("BE", "Belgium"), ("BR", "Brazil"), ("CA", "Canada"),
    ("CH", "Switzerland"), ("CL", "Chile"), ("CN", "China"), ("CZ", "Czechia"), ("DE", "Germany"),
    ("DK", "Denmark"), ("EE", "Estonia"), ("ES", "Spain"), ("FI", "Finland"), ("FR", "France"),
    ("GB", "United Kingdom"), ("GR", "Greece"), ("HK", "Hong Kong"), ("HR", "Croatia"),
    ("HU", "Hungary"), ("IE", "Ireland"), ("IL", "Israel"), ("IN", "India"), ("IS", "Iceland"),
    ("IT", "Italy"), ("JP", "Japan"), ("KR", "South Korea"), ("LT", "Lithuania"),
    ("LU", "Luxembourg"), ("LV", "Latvia"), ("MX", "Mexico"), ("MY", "Malaysia"),
    ("NL", "Netherlands"), ("NO", "Norway"), ("NZ", "New Zealand"), ("PH", "Philippines"),
    ("PL", "Poland"), ("PT", "Portugal"), ("RO", "Romania"), ("SE", "Sweden"),
    ("SG", "Singapore"), ("SI", "Slovenia"), ("SK", "Slovakia"), ("TH", "Thailand"),
    ("TR", "Turkey"), ("TW", "Taiwan"), ("UA", "Ukraine"), ("VN", "Vietnam"),
    ("ZA", "South Africa")]

def euroCountries : List String :=
  ["AT", "BE", "HR", "EE", "FI", "FR", "DE", "GR", "IE", "IT", "LV", "LT", "LU", "NL", "PT",
    "SK", "SI", "ES"]

def otherCurrencies : List (String × String) :=
  [("AU", "AUD"), ("BR", "BRL"), ("CA", "CAD"), ("CH", "CHF"), ("CL", "CLP"), ("CN", "CNY"),
    ("CZ", "CZK"), ("DK", "DKK"), ("GB", "GBP"), ("HK", "HKD"), ("HU", "HUF"), ("IL", "ILS"),
    ("IN", "INR"), ("IS", "ISK"), ("JP", "JPY"), ("KR", "KRW"), ("MX", "MXN"), ("MY", "MYR"),
    ("NO", "NOK"), ("NZ", "NZD"), ("PH", "PHP"), ("PL", "PLN"), ("RO", "RON"), ("SE", "SEK"),
    ("SG", "SGD"), ("TH", "THB"), ("TR", "TRY"), ("TW", "TWD"), ("UA", "UAH"), ("VN", "VND"),
    ("ZA", "ZAR")]

def lookup {α : Type} (table : List (String × α)) (code : String) : Option α :=
  (table.find? fun p => p.1 = code).map Prod.snd

/-- SOURCE: lss-core/src/cost_setup.rs:21-40 -/
def placeName (code : String) : Option String := lookup places code

/-- SOURCE: lss-core/src/country_rates.rs:14-28 -/
def placeNameCountry (code : String) : Option String := lookup countries code

/-- SOURCE: lss-core/src/country_rates.rs:39-53 -/
def currencyOfCountry (code : String) : Option String :=
  let code := String.ofList (code.toList.map Char.toUpper)
  if euroCountries.contains code then some "EUR" else lookup otherCurrencies code

/-- The national average is no place where someone lives.
SOURCE: lss-core/src/cost_setup.rs:42-49 -/
def stateUsdPerKwh (code : String) : Option ℚ :=
  if code = "US" then none else (lookup residentialCentsPerKwh code).map fun cents => cents / 100

def sameLetters (a b : String) : Bool := lower a.toList = lower b.toList

/-! ## Where someone lives -/

/-- SOURCE: lss-core/src/cost_setup.rs:51-63 -/
inductive ZipLookup where
  | state (code : String) (usdPerKwh : ℚ)
  | notCovered (code : String)
  | unknownPrefix (digits : String)
  | invalid (reason : String)

/-- Places that share their first digits with others.
SOURCE: lss-core/src/cost_setup.rs:80-89 -/
def overrides : List (String × String) :=
  [("96799", "AS"), ("96939", "PW"), ("96940", "PW"), ("96941", "FM"), ("96942", "FM"),
    ("96943", "FM"), ("96944", "FM"), ("96950", "MP"), ("96951", "MP"), ("96952", "MP"),
    ("96960", "MH"), ("96970", "MH")]

section Zip

-- the state of a ZIP code by its first three digits, empty where none begins with them
variable (zip3State : ℕ → String)

/-- SOURCE: lss-core/src/cost_setup.rs:65-99 -/
def lookupZip (input : String) : ZipLookup :=
  let s := (trim input).toList.filter fun c => c ≠ '-' && c ≠ ' '
  if s = [] then .invalid "no ZIP code was entered"
  else if ¬s.all Char.isDigit then
    .invalid ("'" ++ trim input ++ "' is not a US ZIP code (digits only, like 02134)")
  else if s.length ≠ 5 ∧ s.length ≠ 9 then
    .invalid ("a US ZIP code has 5 digits (or 5+4); '" ++ trim input ++ "' has " ++
      toString s.length)
  else
    let code := (lookup overrides (String.ofList (s.take 5))).getD
      (zip3State (Nat.ofDigitChars 10 (s.take 3) 0))
    if code = "" then .unknownPrefix (String.ofList (s.take 3))
    else
      match stateUsdPerKwh code with
      | some usdPerKwh => .state code usdPerKwh
      | none => .notCovered code

/-- SOURCE: lss-collector/src/cost_setup_run.rs:261-268 -/
def zipProblem : ZipLookup → String
  | .notCovered code =>
    (placeName code).getD code ++ " is not in EIA's state table, so there is no average to use"
  | .unknownPrefix digits => "no US ZIP code starts with " ++ digits
  | .invalid reason => reason
  | .state _ _ => ""

/-- SOURCE: lss-core/src/cost_setup.rs:101-109 -/
def stateCodeFromRegion (region : String) : Option String :=
  ((residentialCentsPerKwh.map Prod.fst).filter fun code => code ≠ "US").find? fun code =>
    sameLetters code (trim region) ||
      (placeName code).any fun name => sameLetters name (trim region)

/-- SOURCE: lss-core/src/cost_setup.rs:111-119 -/
inductive IpLocation where
  | usState (code : String) (usdPerKwh : ℚ) (city : String)
  | usNotCovered (region : String)
  | notUs (country : String)

/-- What is read in the answer of the location service; a field that is no text is missing. -/
structure IpAnswer where
  error : Option String := none
  country : Option String := none
  region : Option String := none
  city : Option String := none
  postal : Option String := none

/-- SOURCE: lss-core/src/cost_setup.rs:126-153 -/
def parseIpinfo (readJson : String → Except String IpAnswer) (json : String) :
    Except String IpLocation := do
  let v ← (readJson json).mapError fun e =>
    "the location service's answer was not readable (" ++ e ++ ")"
  match v.error with
  | some err => .error ("the location service refused: " ++ err)
  | none =>
    let country := trim (v.country.getD "")
    if country = "" then .error "the location service did not say which country this is"
    else if ¬sameLetters country "US" then .ok (.notUs country)
    else
      let region := v.region.getD ""
      match (stateCodeFromRegion region).bind fun code =>
          (stateUsdPerKwh code).map fun usd => (code, usd) with
      | some (code, usd) => .ok (.usState code usd (v.city.getD ""))
      | none =>
        match v.postal.map (lookupZip zip3State) with
        | some (.state code usd) => .ok (.usState code usd (v.city.getD ""))
        | _ => .ok (.usNotCovered region)

end Zip

/-! ## Typed rates -/

/-- A number in decimal: digits on at least one side of the point. -/
def parseDecimal (t : List Char) : Option ℚ :=
  let whole := t.takeWhile Char.isDigit
  match t.dropWhile Char.isDigit with
  | [] => if whole = [] then none else some (Nat.ofDigitChars 10 whole 0)
  | '.' :: fraction =>
    if fraction.all Char.isDigit ∧ (whole ≠ [] ∨ fraction ≠ []) then
      some (Nat.ofDigitChars 10 (whole ++ fraction) 0 / 10 ^ fraction.length)
    else none
  | _ => none

def digitsAndPoints (t : List Char) : List Char := t.filter fun c => c.isDigit || c = '.'

def readAsCents (raw : List Char) (v : ℚ) : Bool :=
  !raw.contains '$' && (raw.contains 'c' || raw.contains '¢' || (1 ≤ v && v ≤ 200))

/-- Home rates are between one cent and two dollars.
SOURCE: lss-core/src/cost_setup.rs:173-179 -/
def usualRate (usd : ℚ) : Except String ℚ :=
  if 2 < usd then
    .error ("$" ++ fixedDecimals 2 usd ++
      "/kWh is far above any real residential rate - type it in dollars, like 0.31")
  else if usd < 1 / 100 then
    .error ("$" ++ fixedDecimals 4 usd ++
      "/kWh is below any real residential rate - type it in dollars, like 0.31")
  else .ok usd

/-- SOURCE: lss-core/src/cost_setup.rs:155-181 -/
def parseRate (input : String) : Except String ℚ :=
  let raw := lower (trim input).toList
  if raw.contains '-' then .error "a rate must be more than zero"
  else
    match parseDecimal (digitsAndPoints raw) with
    | none =>
      .error ("'" ++ trim input ++ "' is not a rate - type it like 0.31 (dollars per kWh)")
    | some v =>
      if v ≤ 0 then .error "a rate must be more than zero"
      else usualRate (if readAsCents raw v then v / 100 else v)

/-- A bare number that was read as a few cents, in words.
SOURCE: lss-core/src/cost_setup.rs:183-202 -/
def centsDoubt (input : String) : Option String :=
  let raw := lower (trim input).toList
  if raw.contains '$' || raw.contains 'c' || raw.contains '¢' then none
  else do
    let v ← parseDecimal (digitsAndPoints raw)
    let usd ← (parseRate (trim input)).toOption
    if (1 ≤ v ∧ v ≤ 200) ∧ usd < 5 / 100 then
      let shown := String.ofList ((fixedDecimals 4 usd).toList.rdropWhile (· = '0'))
      some ("'" ++ trim input ++ "' reads as " ++ trim input ++ " cents = $" ++ shown ++
        "/kWh, below almost any home rate (most are 10 to 60 cents)")
    else none

/-- SOURCE: lss-core/src/country_rates.rs:55-61 -/
inductive Country where
  | us
  | other (code : String)

/-- SOURCE: lss-core/src/country_rates.rs:117-122 -/
def isRateLike (t : List Char) : Bool :=
  t.head?.any (fun c => c.isDigit || c = '$' || c = '¢') || decide ("/kwh".toList <:+: lower t)

/-- SOURCE: lss-core/src/country_rates.rs:74-102 -/
def parseCountry (input : String) : Except String Country :=
  let t := trim input
  if t = "" || ["us", "usa", "u.s.", "u.s.a.", "united states", "united states of america",
      "america"].any (sameLetters t) then .ok .us
  else if isRateLike t.toList then
    .error ("'" ++ t ++
      "' is not a country - type a country name or 2-letter code, then your rate")
  else if sameLetters t "uk" then .ok (.other "GB")
  else
    match countries.find? fun p => sameLetters t p.1 || sameLetters t p.2 with
    | some (code, _) => .ok (.other code)
    | none =>
      let up := t.toList.map Char.toUpper
      if up.length = 2 ∧ up.all Char.isAlpha then .ok (.other (String.ofList up))
      else .ok (.other t)

/-- SOURCE: lss-core/src/country_rates.rs:104-115 -/
def isBareTwoLetterCode (input : String) : Bool :=
  let t := (trim input).toList
  t.length = 2 && t.all Char.isAlpha && !sameLetters (trim input) "us"

section Abroad

-- the shortest text that reads back as the number
variable (display : Double → String)

/-- The digits of a price as most of Europe writes it: a comma stands for the point, unless three
digits follow it. -/
def decimalComma (num : List Char) : List Char :=
  if num.contains ',' && !num.contains '.' && num.count ',' = 1 &&
      ((num.reverse.takeWhile (· ≠ ',')).length ≠ 3) then
    num.map fun c => if c = ',' then '.' else c
  else num

/-- SOURCE: lss-core/src/country_rates.rs:148-151 -/
def homeRate (v : ℚ) : Except String ℚ :=
  if 100000 < v then
    .error (display (.finite v) ++ " per kWh is far above any real home rate - type the " ++
      "price per kWh from your bill, like 0.25")
  else .ok v

/-- SOURCE: lss-core/src/country_rates.rs:124-153 -/
def parseTypedRate (input : String) : Except String ℚ :=
  let raw := lower (trim input).toList
  if raw.contains '-' then .error "a rate must be more than zero"
  else
    let cents := raw.getLast? = some 'c' ∨ raw.contains '¢' ∨ "cent".toList <:+: raw
    let num := decimalComma (raw.filter fun c => c.isDigit || c = '.' || c = ',')
    match parseDecimal (num.filter fun c => c ≠ ',') with
    | none =>
      .error ("'" ++ trim input ++ "' is not a rate - type the price per kWh from your bill as " ++
        "a plain number, like 0.25")
    | some v =>
      if v ≤ 0 then .error "a rate must be more than zero"
      else homeRate display (if cents then v / 100 else v)

end Abroad

/-- An exponent: a whole number with a sign or without. -/
def parseExponent (t : List Char) : Option ℤ :=
  let digits := if t.head? = some '-' ∨ t.head? = some '+' then t.tail else t
  if digits = [] ∨ ¬digits.all Char.isDigit then none
  else
    let n : ℤ := Nat.ofDigitChars 10 digits 0
    some (if t.head? = some '-' then -n else n)

/-- A floating-point number as the language reads it. -/
def parseDouble (t : List Char) : Option Double :=
  let negative := t.head? = some '-'
  let t := if negative ∨ t.head? = some '+' then t.tail else t
  if lower t = "inf".toList ∨ lower t = "infinity".toList then some (.infinite negative)
  else if lower t = "nan".toList then some .notANumber
  else do
    let m ← parseDecimal (t.takeWhile fun c => c.toLower ≠ 'e')
    let v ← match t.dropWhile fun c => c.toLower ≠ 'e' with
      | [] => some m
      | _ :: e => (parseExponent e).map fun e => m * (10 : ℚ) ^ e
    some (.finite (if negative then -v else v))

/-! ## Typed plans -/

/-- The order of floating-point numbers. -/
def Double.lt : Double → Double → Bool
  | .finite a, .finite b => a < b
  | .finite _, .infinite negative => !negative
  | .infinite negative, .finite _ => negative
  | .infinite a, .infinite b => a && !b
  | _, _ => false

/-- SOURCE: lss-core/src/cost_setup.rs:228-233 -/
def trimMoney (v : Double) : String :=
  match v with
  | .finite v =>
    let t := (fixedDecimals 4 v).toList.rdropWhile (· = '0')
    let t := if t.getLast? = some '.' then t.dropLast else t
    String.ofList (if ((t.dropWhile (· ≠ '.')).drop 1).length = 1 then t ++ ['0'] else t)
  | v => fmtRate v

/-- Numbers that pass the check but are very likely a slip.
SOURCE: lss-core/src/cost_setup.rs:203-226 -/
def touDoubts (p : TouPlan) : List String :=
  let prices := [("on-peak", p.onPeak), ("off-peak", p.offPeak),
    ("weekend/holiday", p.weekendPeak)] ++
    p.seasons.toList.map fun s => ("winter on-peak", s.winterPeak)
  (if p.onPeak.lt p.offPeak then
    ["off-peak ($" ++ trimMoney p.offPeak ++ "/kWh) is dearer than on-peak ($" ++
      trimMoney p.onPeak ++ "/kWh) - usually it is the other way round"] else []) ++
  ((prices.filter fun q => (Double.finite 2).lt q.2).map fun q =>
    "the " ++ q.1 ++ " price $" ++ trimMoney q.2 ++ "/kWh is far above any residential rate") ++
  (if (Double.finite 2).lt p.fixedUsdPerDay then
    ["a fixed charge of $" ++ trimMoney p.fixedUsdPerDay ++
      " a day is far above the usual (most are under $2 a day)"] else [])

/-! ## The file of a flat price -/

/-- Where a rate came from.
SOURCE: lss-core/src/cost_setup.rs:235-245 -/
inductive RateOrigin where
  | stateAverage (code how : String)
  | manual
  | manualAbroad (country : String) (currency : Option String)
deriving DecidableEq

/-- SOURCE: lss-core/src/cost_setup.rs:247-251 -/
def abroadName (country : String) : String := (placeNameCountry country).getD country

/-- SOURCE: lss-core/src/cost_setup.rs:253-261 -/
def sourceLabel (origin : RateOrigin) (today : String) : String :=
  match origin with
  | .stateAverage code _ => code ++ " avg (EIA " ++ eiaMonth ++ ")"
  | .manual => "entered by hand (" ++ today ++ ")"
  | .manualAbroad country _ => "entered by hand, " ++ abroadName country ++ " (" ++ today ++ ")"

/-- SOURCE: lss-core/src/cost_setup.rs:268-285 -/
def rateName : RateOrigin → String
  | .stateAverage code _ => (placeName code).getD code ++ " average residential (EIA)"
  | .manual => "Flat rate (entered by hand)"
  | .manualAbroad country _ => "Flat rate (entered by hand, " ++ abroadName country ++ ")"

def rateEffective (origin : RateOrigin) (today : String) : String :=
  match origin with
  | .stateAverage _ _ => eiaMonth
  | _ => today

def rateDetail : RateOrigin → String
  | .stateAverage code how =>
    eiaSource ++ ", " ++ (placeName code).getD code ++ " residential, " ++ eiaMonth ++
      "; location from " ++ how
  | .manual => "typed by hand during setup"
  | .manualAbroad country (some c) =>
    "typed by hand during setup, from a bill in " ++ abroadName country ++ ", in " ++ c ++
      " per kWh - lss prints every cost with a $ sign; read it as " ++ c
  | .manualAbroad country none =>
    "typed by hand during setup, from a bill in " ++ abroadName country ++ ", in that bill's " ++
      "own currency per kWh - lss prints every cost with a $ sign; read it in that currency"

def rateUrl : RateOrigin → String
  | .stateAverage _ _ => eiaUrl
  | _ => ""

/-- The words about averages.
SOURCE: lss-core/src/cost_setup.rs:290-293 -/
def averageNote : RateOrigin → String
  | .stateAverage _ _ =>
    "# A state AVERAGE is a starting point, not your bill: your own utility's rate - and any\n" ++
    "# time-of-use plan, where peak hours can cost double - is more accurate. " ++
    "Replace it when you can.\n"
  | _ => ""

/-- The keys that only a state average or a rate from abroad has.
SOURCE: lss-core/src/cost_setup.rs:298-306 -/
def originKeys (origin : RateOrigin) : String :=
  (if rateUrl origin = "" then "" else "source_url = " ++ tomlStr (rateUrl origin) ++ "\n") ++
  match origin with
  | .manualAbroad country currency =>
    "country = " ++ tomlStr country ++ "\n" ++
      match currency with
      | some c => "currency = " ++ tomlStr c ++ "\n"
      | none => ""
  | _ => ""

/-- SOURCE: lss-core/src/cost_setup.rs:263-310 -/
def renderRatesToml (usdPerKwh : ℚ) (origin : RateOrigin) (today tool : String) : String :=
  "# lss electricity cost - written by " ++ tool ++ " on " ++ today ++ ".\n" ++
  "# This file is YOURS: re-run `lss-collector cost-setup` to change it, or edit it by hand\n" ++
  "# (packaging/rates.toml.example shows a full time-of-use plan). Restart the collector after.\n" ++
  averageNote origin ++
  ("name = " ++ tomlStr (rateName origin) ++ "\n") ++
  ("effective_date = " ++ tomlStr (rateEffective origin today) ++ "\n") ++
  ("source = " ++ tomlStr (sourceLabel origin today) ++ "\n") ++
  ("source_detail = " ++ tomlStr (rateDetail origin) ++ "\n") ++
  originKeys origin ++
  "\n[plan]\nkind = \"flat\"\n" ++
  ("usd_per_kwh = " ++ fmtRate (.finite usdPerKwh) ++ "\n")

end Lss.Model
