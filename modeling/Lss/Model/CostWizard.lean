import Lss.Library.Dialog
import Lss.Model.HomeRates

/-!
# The wizard for the price of electricity

The wizard asks for a price, on the command line or in a dialogue, and writes the file of prices.
What it prints is left out; every question stands in the trail with its answer, and so does the
one request to the location service and what is written.
-/

set_option autoImplicit false

namespace Lss.Model.CostWizard

open Lss.Library Lss.Library.Lines

/-! ## The command line and the machine -/

/-- SOURCE: lss-collector/src/cost_setup_run.rs:35-42 -/
inductive Mode where
  | ask
  | zip (zip : String)
  | fromIp
  | rate (rate : String)
  | skip
deriving DecidableEq

/-- SOURCE: lss-collector/src/cost_setup_run.rs:44-50 -/
structure Opts where
  mode : Mode
  force : Bool
  dryRun : Bool

/-- What the wizard touches outside itself.
SOURCE: lss-collector/src/cost_setup_run.rs:75-87 -/
structure Machine where
  zip3State : ℕ → String
  readJson : String → Except String IpAnswer
  /-- the shortest text that reads back as the number -/
  display : Double → String
  /-- the answer of the location service -/
  location : Except String String
  today : String
  /-- who writes the file -/
  tool : String
  /-- what stands at the path -/
  file : Option String
  /-- the file can be written -/
  writable : Bool

/-! ## The trail -/

/-- The prices a plan is asked for. -/
inductive TouPrice where
  | onPeak
  | offPeak
  | weekendPeak
  | winterPeak
deriving DecidableEq

/-- The numbers a plan is asked for. -/
inductive TouNumber where
  | peakStart
  | peakEnd
  | summerStart
  | summerEnd
deriving DecidableEq

inductive Question where
  | country
  | countryCode
  | rateAbroad
  | currency
  | menu
  | zip
  | useZip
  | rate
  | useCents
  | consent
  | useIp
  | touPrice (which : TouPrice) (default : Option ℚ)
  | touNumber (which : TouNumber)
  | seasons
  | dailyCharge
  | useDoubts
  | replace
deriving DecidableEq

/-- What will be written. -/
inductive Plan where
  | flat (usdPerKwh : ℚ) (origin : RateOrigin)
  | tou (plan : TouPlan)
deriving DecidableEq

inductive Event where
  | asked (question : Question) (answer : Option String)
  | fetched
  | skipped
  | wrote (plan : Plan) (text : String)
deriving DecidableEq

/-- Why nothing is picked: the wizard was left, or there is an exit code and something to say. -/
inductive Stop where
  | left
  | failed (code : ℕ) (message : String)

/-- A part of the wizard. -/
abbrev Ask := Dialog Event Stop

def ask (q : Question) : Ask (Option String) := Dialog.ask (Event.asked q)

/-- The answer, or the wizard is left. -/
def answer (q : Question) : Ask String := do
  match ← ask q with
  | some a => pure a
  | none => throw .left

/-- An answer that says yes. -/
def saysYes (answer : Option String) : Bool :=
  answer.any fun a => (lower (trim a).toList).head? = some 'y'

/-- SOURCE: lss-collector/src/cost_setup_run.rs:485-491 -/
def yesNo (q : Question) (default : Bool) : Ask Bool := do
  let a ← ask q
  pure (if a.any fun a => trim a = "" then default else saysYes a)

/-! ## The questions -/

/-- A number of tries, then an exit code and something to say. -/
def tries {α : Type} (once : Ask (Option α)) (n code : ℕ) (message : String) : Ask α :=
  Dialog.tries once (throw (.failed code message)) n

/-- SOURCE: lss-collector/src/cost_setup_run.rs:293-303 -/
def centsConfirmed (typed : String) : Ask Bool :=
  match centsDoubt typed with
  | none => pure true
  | some _ => yesNo .useCents false

/-- A typed price that was not a slip. -/
def readRate (a : String) : Ask (Option ℚ) :=
  match parseRate a with
  | .ok v => do
    if ← centsConfirmed a then pure (some v) else pure none
  | .error _ => pure none

/-- SOURCE: lss-collector/src/cost_setup_run.rs:305-315 -/
def askRate : Ask ℚ :=
  tries (do readRate (← answer .rate)) 3 1
    "no usable rate after 3 tries - cost tracking stays off"

def manual : Ask (ℚ × RateOrigin) := do
  let v ← askRate
  pure (v, .manual)

/-- A bare code is asked about once more.
SOURCE: lss-collector/src/cost_setup_run.rs:189-219 -/
def askCountry : Ask Country :=
  tries (do
      let a ← answer .country
      match parseCountry a with
      | .ok .us => pure (some .us)
      | .ok (.other code) =>
        if isBareTwoLetterCode a then
          if ← yesNo .countryCode false then pure (some (.other code)) else pure none
        else pure (some (.other code))
      | .error _ => pure none)
    3 1 "no country after 3 tries - cost tracking stays off"

/-- SOURCE: lss-collector/src/cost_setup_run.rs:236-246 -/
def askCurrency (country : String) : Ask (Option String) :=
  match currencyOfCountry country with
  | some c => pure (some c)
  | none => do
    let a ← answer .currency
    let c := String.ofList ((trim a).toList.map Char.toUpper)
    pure (if c = "" then none else some c)

section Machine

variable (m : Machine)

/-- SOURCE: lss-collector/src/cost_setup_run.rs:221-248 -/
def askRateAbroad (country : String) : Ask (ℚ × RateOrigin) := do
  let rate ← tries (do
      let a ← answer .rateAbroad
      pure (parseTypedRate m.display a).toOption)
    3 1 "no usable rate after 3 tries - cost tracking stays off"
  let currency ← askCurrency country
  pure (rate, .manualAbroad country currency)

/-- SOURCE: lss-collector/src/cost_setup_run.rs:250-259 -/
def fromZip (zip : String) : Ask (ℚ × RateOrigin) :=
  match lookupZip m.zip3State zip with
  | .state code usd => pure (usd, .stateAverage code ("ZIP " ++ trim zip))
  | other =>
    throw (.failed 1 (zipProblem other ++ " - pass --rate with the $/kWh from your bill instead"))

/-- SOURCE: lss-collector/src/cost_setup_run.rs:270-291 -/
def askZip : Ask (ℚ × RateOrigin) :=
  Dialog.tries (do
      let a ← answer .zip
      match lookupZip m.zip3State a with
      | .state code usd =>
        if ← yesNo .useZip true then
          pure (some (usd, .stateAverage code ("ZIP " ++ trim a)))
        else do
          let picked ← manual
          pure (some picked)
      | .notCovered _ => do
        let picked ← manual
        pure (some picked)
      | _ => pure none)
    manual 3

/-- SOURCE: lss-core/src/cost_setup.rs:123 -/
def ipServiceName : String := "ipinfo.io"

/-- The state average of a place, confirmed where someone is asked. -/
def takePlace (interactive : Bool) (code : String) (usd : ℚ) : Ask (ℚ × RateOrigin) := do
  let how := "an IP lookup via " ++ ipServiceName
  if interactive then
    if ← yesNo .useIp true then pure (usd, .stateAverage code how) else askZip m
  else pure (usd, .stateAverage code how)

/-- What is made of the answer; where someone is asked, a ZIP code or a rate takes its place.
SOURCE: lss-collector/src/cost_setup_run.rs:328-362 -/
def takeLocation (interactive : Bool) : Ask (ℚ × RateOrigin) :=
  match m.location.bind (parseIpinfo m.zip3State m.readJson) with
  | .ok (.usState code usd _) => takePlace m interactive code usd
  | .ok (.notUs country) =>
    if interactive then manual
    else throw (.failed 1 (ipServiceName ++ " places you outside the US (" ++ country ++
      "); the built-in table covers US states only - pass --rate instead"))
  | .ok (.usNotCovered region) =>
    if interactive then askZip m
    else throw (.failed 1 (ipServiceName ++ " places you in '" ++ region ++
      "', which EIA's state table does not cover - pass --zip or --rate instead"))
  | .error e =>
    if interactive then askZip m
    else throw (.failed 1 ("the location lookup failed (" ++ e ++
      ") - pass --zip or --rate instead"))

/-- Where someone can be asked, the request is asked for; the command line was the consent.
SOURCE: lss-collector/src/cost_setup_run.rs:320-327 -/
def askConsent (interactive : Bool) : Ask Bool :=
  if interactive then yesNo .consent false else pure true

/-- SOURCE: lss-collector/src/cost_setup_run.rs:317-363 -/
def fromIp (interactive : Bool) : Ask (ℚ × RateOrigin) := do
  if ← askConsent interactive then
    Dialog.note .fetched
    takeLocation m interactive
  else askZip m

/-! ## A time-of-use plan -/

/-- SOURCE: lss-collector/src/cost_setup_run.rs:371-387 -/
def askPrice (which : TouPrice) (default : Option ℚ) : Ask ℚ :=
  tries (do
      let a ← answer (.touPrice which default)
      match default.filter fun _ => trim a = "" with
      | some d => pure (some d)
      | none => readRate a)
    3 1 "no usable price after 3 tries - nothing written"

/-- SOURCE: lss-collector/src/cost_setup_run.rs:388-401 -/
def askNumber (which : TouNumber) (default low high : ℕ) : Ask ℕ :=
  tries (do
      let a ← answer (.touNumber which)
      if trim a = "" then pure (some default)
      else pure ((parseCount (2 ^ 32) (trim a).toList).filter fun n => low ≤ n ∧ n ≤ high))
    3 1 "no usable number after 3 tries - nothing written"

/-- A dollar amount a day, nothing being zero. -/
def readCharge (a : String) : Option ℚ :=
  let t := (trim a).toList.dropWhile (· = '$')
  if t = [] then some 0
  else
    match parseDouble t with
    | some (.finite v) => if 0 ≤ v ∧ v < 100 then some v else none
    | _ => none

/-- SOURCE: lss-collector/src/cost_setup_run.rs:446-460 -/
def priceOrZero : Ask ℚ :=
  tries (do
      let a ← answer .dailyCharge
      pure (readCharge a))
    3 1 "no usable daily charge after 3 tries - nothing written"

/-- SOURCE: lss-collector/src/cost_setup_run.rs:416-423 -/
def askSeasons (onPeak : ℚ) : Ask (Option Seasons) := do
  if ← yesNo .seasons false then
    let summerStart ← askNumber .summerStart 6 1 12
    let summerEnd ← askNumber .summerEnd 10 1 12
    let winterPeak ← askPrice .winterPeak (some onPeak)
    pure (some ⟨summerStart, summerEnd, .finite winterPeak⟩)
  else pure none

/-- One round of the questions.
SOURCE: lss-collector/src/cost_setup_run.rs:411-425 -/
def askPlan : Ask TouPlan := do
  let onPeak ← askPrice .onPeak none
  let peakStart ← askNumber .peakStart 16 0 23
  let peakEnd ← askNumber .peakEnd 21 1 24
  let offPeak ← askPrice .offPeak none
  let weekendPeak ← askPrice .weekendPeak (some onPeak)
  let seasons ← askSeasons onPeak
  let fixedUsdPerDay ← priceOrZero
  pure
    { onPeak := .finite onPeak, peakStart := peakStart, peakEnd := peakEnd,
      offPeak := .finite offPeak, weekendPeak := .finite weekendPeak, seasons := seasons,
      fixedUsdPerDay := .finite fixedUsdPerDay }

/-- A plan that can be used, and that was no slip.
SOURCE: lss-collector/src/cost_setup_run.rs:426-441 -/
def checkPlan (plan : TouPlan) : Ask (Option TouPlan) :=
  match checkTou m.display plan with
  | .ok () =>
    if touDoubts plan = [] then pure (some plan)
    else do
      if ← yesNo .useDoubts false then pure (some plan) else pure none
  | .error _ => pure none

/-- SOURCE: lss-collector/src/cost_setup_run.rs:365-444 -/
def askTou : Ask TouPlan :=
  tries (do checkPlan m (← askPlan)) 3 1 "no usable time-of-use plan after 3 tries - nothing written"

/-! ## The menu -/

/-- What was chosen in the menu. -/
inductive Choice where
  | zip
  | fromIp
  | rate
  | skip
  | tou
deriving DecidableEq

def readChoice (a : String) : Option Choice :=
  let a := trim a
  if a = "" ∨ a = "1" then some .zip
  else if a = "2" then some .fromIp
  else if a = "3" then some .rate
  else if a = "4" ∨ a = "s" ∨ a = "skip" then some .skip
  else if a = "5" ∨ a = "tou" then some .tou
  else none

def flat (picked : Ask (ℚ × RateOrigin)) : Ask Plan := do
  let (usd, origin) ← picked
  pure (.flat usd origin)

def takeChoice : Choice → Ask Plan
  | .zip => flat (askZip m)
  | .fromIp => flat (fromIp m true)
  | .rate => flat manual
  | .skip => throw .left
  | .tou => do
    let plan ← askTou m
    pure (.tou plan)

/-- The country first: the averages are those of one country.
SOURCE: lss-collector/src/cost_setup_run.rs:155-187 -/
def askMenu : Ask Plan := do
  match ← askCountry with
  | .other code => flat (askRateAbroad m code)
  | .us => do
    let choice ← tries (do
        let a ← answer .menu
        pure (readChoice a))
      5 2 "no valid choice after 5 tries"
    takeChoice m choice

/-! ## The run -/

/-- SOURCE: lss-collector/src/cost_setup_run.rs:100-107 -/
def fromRate (r : String) : Ask (ℚ × RateOrigin) :=
  match centsDoubt r with
  | some d =>
    throw (.failed 1 ("--rate " ++ trim r ++ ": " ++ d ++ ". If that is right, pass --rate " ++
      trim r ++ "c; otherwise pass the dollars, like --rate 0.31"))
  | none =>
    match parseRate r with
    | .ok v => pure (v, .manual)
    | .error e => throw (.failed 1 e)

/-- SOURCE: lss-collector/src/cost_setup_run.rs:89-108 -/
def pick (opts : Opts) : Ask Plan :=
  match opts.mode with
  | .skip => throw .left
  | .ask => askMenu m
  | .zip z => flat (fromZip m z)
  | .fromIp => flat (fromIp m false)
  | .rate r => flat (fromRate r)

/-- The text of what will be written. -/
def render (plan : Plan) : String :=
  match plan with
  | .flat usd origin => renderRatesToml usd origin m.today m.tool
  | .tou plan => renderTouToml plan m.today m.tool

/-- What stands at the path is replaced only when told to. Only the dialogue can ask.
SOURCE: lss-collector/src/cost_setup_run.rs:127-135 and 470-475 -/
def mayReplace (opts : Opts) : Ask Bool :=
  if m.file.isNone ∨ opts.force then pure true
  else if opts.mode = .ask then yesNo .replace false
  else pure false

/-- The exit code.
SOURCE: lss-collector/src/cost_setup_run.rs:109-145 and 461-482 -/
def save (opts : Opts) (plan : Plan) : Ask ℕ :=
  if opts.dryRun then pure 0
  else do
    if ← mayReplace m opts then
      if m.writable then
        Dialog.note (.wrote plan (render m plan))
        pure 0
      else pure 1
    else pure 3

/-- What a run leaves behind. -/
structure Outcome where
  code : ℕ
  trail : List Event
  file : Option String

/-- What stands at the path in the end: what was written last. -/
def fileAfter (trail : List Event) : Option String :=
  trail.foldl (fun file e => match e with
    | .wrote _ text => some text
    | _ => file) m.file

/-- The wizard from its first question to its exit code.
SOURCE: lss-collector/src/cost_setup_run.rs:89-142 -/
def run (opts : Opts) (answers : List String) : Outcome :=
  match (pick m opts >>= save m opts).result ⟨answers, []⟩ with
  | (.ok code, t) => ⟨code, t.trail, fileAfter m t.trail⟩
  | (.error .left, t) =>
    let trail := t.trail ++ [.skipped]
    ⟨0, trail, fileAfter m trail⟩
  | (.error (.failed code _), t) => ⟨code, t.trail, fileAfter m t.trail⟩

end Machine

end Lss.Model.CostWizard
