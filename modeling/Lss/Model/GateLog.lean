import Mathlib.Data.Rat.Defs
import Mathlib.Order.Basic
import Mathlib.Algebra.Order.Ring.Rat
import Std.Data.ExtTreeMap

/-!
# What the gateway's log adds up to

The counts and sums a stretch of the gateway's log is reduced to, and how two stretches
are merged. A sample carries the stretch since the previous poll; the rollup keeps one
merged stretch for every ten minutes.
-/

set_option autoImplicit false

namespace Lss.Model

/-- Folds the entries of `theirs` into `mine`, starting a missing entry at its default.
SOURCE: lss-core/src/gatelog.rs:317-319 -/
def mergeEntries {κ β : Type} [Ord κ] [Std.TransOrd κ] [Inhabited β]
    (merge : β → β → β) (mine theirs : Std.ExtTreeMap κ β) : Std.ExtTreeMap κ β :=
  theirs.foldl (fun m k v => m.alter k fun old => some (merge (old.getD default) v)) mine

/-- Count, sum and maximum of a duration in milliseconds, with the counts per edge.
SOURCE: lss-core/src/gatelog.rs:52-64 -/
structure TimeAgg where
  n : ℕ := 0
  sumMs : ℚ := 0
  maxMs : ℚ := 0
  le : Vector ℕ 8 := Vector.replicate 8 0
  leN : ℕ := 0
deriving Inhabited

/-- SOURCE: lss-core/src/gatelog.rs:87-95 -/
def TimeAgg.merge (t o : TimeAgg) : TimeAgg where
  n := t.n + o.n
  sumMs := t.sumMs + o.sumMs
  maxMs := max t.maxMs o.maxMs
  le := t.le.zipWith (· + ·) o.le
  leN := t.leN + o.leN

/-- What one user experienced.
SOURCE: lss-core/src/gatelog.rs:122-133 -/
structure UserExp where
  n : ℕ := 0
  ttfb : List ℕ := []
  speedN : ℕ := 0
  tokens : ℚ := 0
  writeSecs : ℚ := 0
  speed : List ℕ := []
deriving Inhabited

/-- Adds two rows of counts; the shorter one of `mine` is padded first.
SOURCE: lss-core/src/gatelog.rs:183-190 -/
def addCounts : List ℕ → List ℕ → List ℕ
  | mine, [] => mine
  | [], theirs => theirs
  | m :: mine, t :: theirs => (m + t) :: addCounts mine theirs

/-- SOURCE: lss-core/src/gatelog.rs:178-191 -/
def UserExp.merge (u o : UserExp) : UserExp where
  n := u.n + o.n
  ttfb := addCounts u.ttfb o.ttfb
  speedN := u.speedN + o.speedN
  tokens := u.tokens + o.tokens
  writeSecs := u.writeSecs + o.writeSecs
  speed := addCounts u.speed o.speed

/-- Count, sum and maximum of the estimated tokens.
SOURCE: lss-core/src/gatelog.rs:225-229 -/
structure EstTokens where
  n : ℕ := 0
  sum : ℚ := 0
  max : ℚ := 0
deriving Inhabited

/-- SOURCE: lss-core/src/gatelog.rs:240-244 -/
def EstTokens.merge (t o : EstTokens) : EstTokens where
  n := t.n + o.n
  sum := t.sum + o.sum
  max := Max.max t.max o.max

/-- The requests of one lane.
SOURCE: lss-core/src/gatelog.rs:269-303 -/
structure LaneLog where
  requests : ℕ := 0
  other : ℕ := 0
  byStatus : Std.ExtTreeMap ℕ ℕ := ∅
  byVerdict : Std.ExtTreeMap String ℕ := ∅
  byKey : Std.ExtTreeMap String ℕ := ∅
  byKeyStatus : Std.ExtTreeMap String (Std.ExtTreeMap ℕ ℕ) := ∅
  est : EstTokens := {}
  byKeyEst : Std.ExtTreeMap String EstTokens := ∅
  byIp : Std.ExtTreeMap String ℕ := ∅
  ttfbBySize : Std.ExtTreeMap String TimeAgg := ∅
  completionTokens : ℚ := 0
  completionEstimated : ℚ := 0
  promptMax : ℚ := 0
  byUser : Std.ExtTreeMap String UserExp := ∅
deriving Inhabited

/-- SOURCE: lss-core/src/gatelog.rs:314-346 -/
def LaneLog.merge (l o : LaneLog) : LaneLog where
  requests := l.requests + o.requests
  other := l.other + o.other
  byStatus := mergeEntries (· + ·) l.byStatus o.byStatus
  byVerdict := mergeEntries (· + ·) l.byVerdict o.byVerdict
  byKey := mergeEntries (· + ·) l.byKey o.byKey
  byKeyStatus := mergeEntries (mergeEntries (· + ·)) l.byKeyStatus o.byKeyStatus
  est := l.est.merge o.est
  byKeyEst := mergeEntries EstTokens.merge l.byKeyEst o.byKeyEst
  byIp := mergeEntries (· + ·) l.byIp o.byIp
  ttfbBySize := mergeEntries TimeAgg.merge l.ttfbBySize o.ttfbBySize
  completionTokens := l.completionTokens + o.completionTokens
  completionEstimated := l.completionEstimated + o.completionEstimated
  promptMax := max l.promptMax o.promptMax
  byUser := mergeEntries UserExp.merge l.byUser o.byUser

/-- SOURCE: lss-core/src/gatelog.rs:310-312 -/
def LaneLog.isEmpty (l : LaneLog) : Bool := l.requests == 0 && l.other == 0

/-- What was logged between two polls, per lane.
SOURCE: lss-core/src/gatelog.rs:371-376 -/
structure LogDelta where
  publicLane : LaneLog := {}
  trustedLane : LaneLog := {}
deriving Inhabited

/-- SOURCE: lss-core/src/gatelog.rs:379-381 -/
def LogDelta.isEmpty (d : LogDelta) : Bool := d.publicLane.isEmpty && d.trustedLane.isEmpty

/-- Merges a later stretch of the log into an earlier one, lane by lane.
SOURCE: lss-core/src/gatelog.rs:433-436 -/
def LogDelta.merge (d o : LogDelta) : LogDelta where
  publicLane := d.publicLane.merge o.publicLane
  trustedLane := d.trustedLane.merge o.trustedLane

end Lss.Model
