import Lss.Model.Cost

/-!
# Tokens of the hour, the day, the week and the month

The counted tokens and requests of four windows of time that end now, added up from the rollup:
the first three from its minutes, the month from its ten minutes.
-/

set_option autoImplicit false

namespace Lss.Model

/-- SOURCE: lss-core/src/model.rs:448-453 -/
structure WorkWindow where
  prompt : ℚ
  cached : ℚ
  generated : ℚ
  requests : ℚ

/-- SOURCE: lss-collector/src/db.rs:711-715 -/
def RollupDb.rollupSum (db : RollupDb) (res : ℤ) (metric : String) (start stop : ℤ) : ℚ :=
  ((db.rollupRows res metric start stop).map fun row => row.2.sum).sum

section Windows

-- the start of the first row a tier has of `tok_gen` (lss-collector/src/db.rs:462-465)
variable (db : RollupDb) (firstTs : ℤ → Option ℤ)

/-- A window with the seconds of it that stored data cover; nothing while the tier has no row.
SOURCE: lss-collector/src/tokens_run.rs:33-39 -/
def window (res now start : ℤ) : Option WorkWindow × Option ℤ :=
  match firstTs res with
  | none => (none, none)
  | some first =>
    let sum := fun metric : String => db.rollupSum res metric start (now + 1)
    (some ⟨sum "tok_prompt", sum "tok_cached", sum "tok_gen", sum "sum_requests"⟩,
      some (max (now - max first start) 0))

/-- SOURCE: lss-collector/src/tokens_run.rs:41-50 -/
structure Windows where
  hour : Option WorkWindow
  hourCoveredSecs : Option ℤ
  day : Option WorkWindow
  dayCoveredSecs : Option ℤ
  week : Option WorkWindow
  weekCoveredSecs : Option ℤ
  month : Option WorkWindow
  monthCoveredSecs : Option ℤ

/-- SOURCE: lss-collector/src/tokens_run.rs:58-64 -/
def compute (now : ℤ) : Windows :=
  let hour := window db firstTs res1m now (now - 3600)
  let day := window db firstTs res1m now (now - 86400)
  let week := window db firstTs res1m now (now - 7 * 86400)
  let month := window db firstTs res10m now (now - 30 * 86400)
  ⟨hour.1, hour.2, day.1, day.2, week.1, week.2, month.1, month.2⟩

end Windows

end Lss.Model
