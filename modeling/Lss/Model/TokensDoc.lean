import Lss.Model.TokenWindows
import Lss.Model.Tokens

/-!
# The table of tokens

What was generated, read, read from the cache and answered in the last hour, day and week, since
midnight and in all: the windows added up from the rollup, all time from the ledger and from what
the rollup holds from before the ledger began.
-/

set_option autoImplicit false

namespace Lss.Model

/-- One sample the poll loop took, read into the ledger; `day` tells the local day of a time.
SOURCE: lss-collector/src/main.rs:988-995 -/
def AllTime.observeSample (day : ℤ → String) (a : AllTime) (s : Sample) : AllTime :=
  match s.metrics with
  | some m => a.observe s.ts (day s.ts) (s.serveCt.elim 0 ContainerState.startedAt) m
  | none => a

/-- The tokens of one window.
SOURCE: lss-core/src/tokens.rs:100-118 -/
structure TokenWindow where
  name : String
  secs : ℤ
  generated : ℚ
  prompt : ℚ
  cached : ℚ
  cacheShare : Option ℚ
  requests : ℚ
  /-- from when the requests are counted, where that is later than the window starts -/
  requestsSince : Option ℤ

/-- Cached over prompt tokens.
SOURCE: lss-core/src/tokens.rs:122 -/
def cacheShareOf (cached prompt : ℚ) : Option ℚ :=
  if 0 < prompt then some (roundHalfAway (min (cached / prompt) 1 * 10000) / 10000) else none

/-- SOURCE: lss-core/src/tokens.rs:121-124 -/
def TokenWindow.new (name : String) (secs : ℤ) (sums : TokenCounter → ℚ) : TokenWindow where
  name := name
  secs := secs
  generated := sums .generated
  prompt := sums .prompt
  cached := sums .cached
  cacheShare := cacheShareOf (sums .cached) (sums .prompt)
  requests := sums .requests
  requestsSince := none

/-- What a window has of a counter. -/
def TokenWindow.counter (w : TokenWindow) : TokenCounter → ℚ
  | .generated => w.generated
  | .prompt => w.prompt
  | .cached => w.cached
  | .requests => w.requests

/-- The series a counter is added up from.
SOURCE: lss-collector/src/query.rs:306 -/
def TokenCounter.metric : TokenCounter → String
  | .generated => "tok_gen"
  | .prompt => "tok_prompt"
  | .cached => "tok_cached"
  | .requests => "sum_requests"

section Windows

variable (db : RollupDb)

/-- What the rollup has of a counter in the last `secs` seconds: the last day from the minutes, the
days before it from the ten minutes.
SOURCE: lss-collector/src/query.rs:310-318 -/
def windowSum (now secs : ℤ) (c : TokenCounter) : ℚ :=
  if secs ≤ 86400 then db.rollupSum res1m c.metric (now - secs) (now + 1)
  else
    let seam := (now - 86400) - (now - 86400) % 600
    db.rollupSum res10m c.metric (now - secs) seam + db.rollupSum res1m c.metric seam (now + 1)

-- where a tier's first row of a metric starts (lss-collector/src/db.rs:470-473)
variable (firstTs : ℤ → String → Option ℤ)

/-- SOURCE: lss-collector/src/query.rs:309-334 -/
def tokenWindow (now : ℤ) (name : String) (secs : ℤ) : TokenWindow :=
  let w := TokenWindow.new name secs (windowSum db now secs)
  let tier := if secs ≤ 86400 then res1m else res10m
  { w with
    cacheShare := match firstTs tier "tok_cached", firstTs tier "tok_prompt" with
      | some fc, some fp =>
        let start := max (max (now - secs) fc) fp
        cacheShareOf (db.rollupSum tier "tok_cached" start (now + 1))
          (db.rollupSum tier "tok_prompt" start (now + 1))
      | _, _ => w.cacheShare
    requestsSince := match firstTs tier "sum_requests", firstTs tier "tok_gen" with
      | some fr, some fg => if fr > max (now - secs) fg + tier then some fr else none
      | _, _ => none }

/-- What the ten minutes hold from before the ledger began.
SOURCE: lss-collector/src/query.rs:340 -/
def before (all : AllTime) (c : TokenCounter) : ℚ :=
  if 0 < all.since then db.rollupSum res10m c.metric 0 (max (all.since - 599) 0) else 0

/-- SOURCE: lss-collector/src/query.rs:341-344 -/
def allRow (now : ℤ) (all : AllTime) (week : TokenWindow) : TokenWindow :=
  let historySince := (firstTs res10m "tok_gen").filter fun t => all.since = 0 ∨ t < all.since
  let allSince := historySince.getD all.since
  { TokenWindow.new "all" (max (now - allSince) 0)
      fun c => (all.counter c).total + before db all c with
    requestsSince := week.requestsSince.filter fun t => t > allSince + 600 }

/-- The rows of the table.
SOURCE: lss-collector/src/query.rs:307-345 -/
def tokenRows (now localMidnight : ℤ) (all : AllTime) : List TokenWindow :=
  let week := tokenWindow db firstTs now "7d" (7 * 86400)
  [tokenWindow db firstTs now "1h" 3600, tokenWindow db firstTs now "24h" 86400, week,
    tokenWindow db firstTs now "today" (max (now - localMidnight) 0),
    allRow db firstTs now all week]

end Windows

end Lss.Model
