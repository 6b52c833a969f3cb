import Lss.Library.Table
import Lss.Model.Rollup

/-!
# The repair of impossible token buckets

A bucket with more cached tokens than any hardware serves, and more than twice the prompt tokens
of the same bucket, is a counter's whole life booked into one step. When the collector starts,
such tokens are spread back over the earlier buckets that read prompts while the cache counter
said nothing.
-/

set_option autoImplicit false

namespace Lss.Model

open Lss.Library

/-- A row of the rollup table with its key.
SOURCE: lss-collector/src/db.rs:44-46 -/
structure StoredRollup where
  res : ℤ
  metric : String
  ts : ℤ
  row : RollupRow

/-- SOURCE: lss-collector/src/db.rs:46 -/
def StoredRollup.key (r : StoredRollup) : ℤ × String × ℤ := (r.res, r.metric, r.ts)

/-- What a row adds up to. -/
def RollupRow.sum (r : RollupRow) : ℚ := r.avg * r.n

/-- The stored rollup: one row for a tier, a metric and a time, every metric with its name.
SOURCE: lss-collector/src/db.rs:43-46 -/
@[ext] structure RollupStore where
  metricNames : List String
  rows : List StoredRollup
  keyed : Table.Keyed StoredRollup.key rows
  named : ∀ r ∈ rows, r.metric ∈ metricNames
  tiers : ∀ r ∈ rows, r.res = res1m ∨ r.res = res10m

/-- The row of a key. -/
def rowAt (rows : List StoredRollup) (res : ℤ) (metric : String) (ts : ℤ) : Option RollupRow :=
  (rows.find? fun r => r.key = (res, metric, ts)).map StoredRollup.row

/-- What the row of a key adds up to, nothing where there is none.
SOURCE: lss-collector/src/db.rs:648, 661 -/
def sumAt (rows : List StoredRollup) (res : ℤ) (metric : String) (ts : ℤ) : ℚ :=
  (rowAt rows res metric ts).elim 0 RollupRow.sum

/-- SOURCE: lss-collector/src/db.rs:643 -/
def maxCachedTokS : ℚ := 500000

/-- The rows of a metric, in the order of the primary key. -/
def scan (rows : List StoredRollup) (metric : String) : List StoredRollup :=
  (rows.filter fun r => r.metric = metric).insertionSort
    fun r s => r.res < s.res ∨ (r.res = s.res ∧ r.ts ≤ s.ts)

/-- Whether a bucket holds more cached tokens than it can.
SOURCE: lss-collector/src/db.rs:651 -/
def tooMany (res : ℤ) (sum promptSum : ℚ) : Prop := maxCachedTokS * res < sum ∧ 2 * promptSum < sum

instance (res : ℤ) (sum promptSum : ℚ) : Decidable (tooMany res sum promptSum) :=
  inferInstanceAs (Decidable (_ ∧ _))

/-- The tier, the time and the tokens of the impossible buckets.
SOURCE: lss-collector/src/db.rs:645-655 -/
def impossibleBuckets (rows : List StoredRollup) : List (ℤ × ℤ × ℚ) :=
  ((scan rows "tok_cached").filter fun c =>
    tooMany c.res c.row.sum (sumAt rows c.res "tok_prompt" c.ts)).map
      fun c => (c.res, c.ts, c.row.sum)

/-- The earlier buckets of a tier that read prompts while the cache counter said nothing, with
their prompt tokens.
SOURCE: lss-collector/src/db.rs:658-666 -/
def tokenHoles (rows : List StoredRollup) (res ts : ℤ) : List (ℤ × ℚ) :=
  ((scan rows "tok_prompt").filter fun p =>
    p.res = res ∧ p.ts < ts ∧ 0 < p.row.sum ∧ sumAt rows res "tok_cached" p.ts = 0).map
      fun p => (p.ts, p.row.sum)

/-- The part of the room of the holes that is filled.
SOURCE: lss-collector/src/db.rs:667-668 -/
def fillFactor (room sum : ℚ) : ℚ := if 0 < room then min (sum / room) 1 else 0

/-- Fills one hole.
SOURCE: lss-collector/src/db.rs:669-672 -/
def fillHole (res : ℤ) (factor : ℚ) (rows : List StoredRollup) (hole : ℤ × ℚ) :
    List StoredRollup :=
  let v := hole.2 * factor
  Table.put StoredRollup.key rows ⟨res, "tok_cached", hole.1, ⟨v, v, v, 1⟩⟩

/-- Spreads one impossible bucket back.
SOURCE: lss-collector/src/db.rs:657-675 -/
def spreadBack (rows : List StoredRollup) (bad : ℤ × ℤ × ℚ) : List StoredRollup :=
  let holes := tokenHoles rows bad.1 bad.2.1
  let room := (holes.map Prod.snd).sum
  let filled := holes.foldl (fillHole bad.1 (fillFactor room bad.2.2)) rows
  filled.filter fun r => r.key ≠ (bad.1, "tok_cached", bad.2.1)

/-- What the repair reports of an impossible bucket: its tokens, and those that found a home.
SOURCE: lss-collector/src/db.rs:674 -/
def spreadReport (rows : List StoredRollup) (bad : ℤ × ℤ × ℚ) : ℤ × ℤ × ℚ × ℚ :=
  let room := ((tokenHoles rows bad.1 bad.2.1).map Prod.snd).sum
  (bad.1, bad.2.1, bad.2.2, room * fillFactor room bad.2.2)

/-- The impossible buckets are found first, and then spread back one after the other.
SOURCE: lss-collector/src/db.rs:642-677 -/
def repairRows (metricNames : List String) (rows : List StoredRollup) :
    List StoredRollup × List (ℤ × ℤ × ℚ × ℚ) :=
  if "tok_cached" ∈ metricNames ∧ "tok_prompt" ∈ metricNames then
    (impossibleBuckets rows).foldl
      (fun out bad => (spreadBack out.1 bad, out.2 ++ [spreadReport out.1 bad])) (rows, [])
  else (rows, [])

end Lss.Model
