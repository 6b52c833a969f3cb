import Lss.Model.Cost
import Lss.Model.Saturation

/-!
# The growth of a machine's work

The last seven days are compared with the seven before them: the tokens and the requests of a day,
and the most users at once. How many users there were is counted on this machine where the gateway
tells, else by the gateway, else by the requests that ran at once.
-/

set_option autoImplicit false

namespace Lss.Model.AdviceRun

/-- The rows of a metric merged, and the highest value of each of them.

SOURCE: lss-collector/src/advice_run.rs:19-30 -/
def merged (db : RollupDb) (res : ℤ) (metric : String) (start stop : ℤ) :
    Option (Agg × List ℚ) :=
  let rows := (db.rollupRows res metric start stop).map Prod.snd
  (rows.foldl (fun (total : Option Agg) a => some (total.elim a fun t => t.merge a)) none).map
    fun total => (total, rows.map Agg.max)

/-- SOURCE: lss-core/src/advice.rs:72-85 -/
structure Growth where
  tokensPerDay : ℚ
  tokensPerDayPrev : ℚ
  requestsPerDay : ℚ
  requestsPerDayPrev : ℚ
  peakUsers : ℚ
  peakUsersPrev : ℚ
  /-- days of data in the earlier week -/
  prevDaysCovered : ℚ
  /-- why the peak is not that of this machine, when it is not -/
  peakUsersBasis : Option String

/-- SOURCE: lss-collector/src/advice_run.rs:176 -/
def week : ℤ := 7 * 86400

section Weeks

variable (db : RollupDb) (now : ℤ)

/-- Users at once on this machine.

SOURCE: lss-collector/src/advice_run.rs:181 -/
def usersHere (start stop : ℤ) : Option ℚ :=
  (merged db res10m "users_active_here" start stop).map fun m => m.1.max

/-- Users at once on every machine of the gateway, when there are any.

SOURCE: lss-collector/src/advice_run.rs:184 -/
def gateUsers (start stop : ℤ) : Option ℚ :=
  ((merged db res10m "users_active" start stop).map fun m => m.1.max).filter fun m => 0 < m

/-- SOURCE: lss-collector/src/advice_run.rs:182 -/
def byMachine : Bool :=
  (usersHere db (now - week) (now + 1)).isSome &&
    (usersHere db (now - 2 * week) (now - week)).isSome

/-- The most users at once that a week is said to have had.

SOURCE: lss-collector/src/advice_run.rs:188-192 -/
def peakUsers (start stop : ℤ) : ℚ :=
  if byMachine db now then (usersHere db start stop).getD 0
  else
    ((gateUsers db start stop).or
      ((merged db res10m "running" start stop).map fun m => m.1.max)).getD 0

/-- SOURCE: lss-collector/src/advice_run.rs:196-197 -/
def usersBasis : Option String :=
  if !byMachine db now && (gateUsers db (now - 2 * week) (now + 1)).isSome then
    some ("gateway too old to split users by machine - " ++
      "counted across every machine it fronts")
  else none

/-- SOURCE: lss-collector/src/advice_run.rs:175-206 -/
def growth (firstSampleTs : ℤ) : Option Growth :=
  let nowFrom := now - week
  let prevFrom := now - 2 * week
  let total := fun (metric : String) (start stop : ℤ) =>
    (merged db res10m metric start stop).elim (0 : ℚ) fun m => m.1.sum
  let prevDays : ℚ := max (nowFrom - max firstSampleTs prevFrom) 0 / 86400
  let nowDays : ℚ := max (max (now - max firstSampleTs nowFrom) 0 / 86400) (1 / 24)
  if prevDays ≤ 0 then none
  else some {
    tokensPerDay := total "tok_gen" nowFrom (now + 1) / nowDays
    tokensPerDayPrev := total "tok_gen" prevFrom nowFrom / max prevDays (1 / 24)
    requestsPerDay := round1 (total "sum_requests" nowFrom (now + 1) / nowDays)
    requestsPerDayPrev := round1 (total "sum_requests" prevFrom nowFrom / max prevDays (1 / 24))
    peakUsers := peakUsers db now nowFrom (now + 1)
    peakUsersPrev := peakUsers db now prevFrom nowFrom
    prevDaysCovered := round1 prevDays
    peakUsersBasis := usersBasis db now }

end Weeks

end Lss.Model.AdviceRun
