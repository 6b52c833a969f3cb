import Lss.Model.Doubles
import Lss.Model.Hist

/-!
# Histograms on a metrics page

The buckets of a histogram are rows with an upper bound as a label. Rows of the same bound are
added up, the bounds are sorted, and a bucket for everything is put behind them where there is
none.
-/

set_option autoImplicit false

namespace Lss.Model.HistExtract

open Prom

/-- SOURCE: lss-core/src/prom.rs:13-17 -/
def label (s : Series Ieee) (key : String) : Option String :=
  (s.labels.find? fun l => l.1 = key).map Prod.snd

/-- A row of the first rank, or of none, with a finite value.
SOURCE: lss-core/src/hist.rs:79 -/
def usable (s : Series Ieee) : Bool :=
  ((label s "tp_rank").all fun r => r = "0") && s.value.isFinite

/-- The usable rows of a name.
SOURCE: lss-core/src/hist.rs:80 -/
def named (series : List (Series Ieee)) (name : String) : List (Series Ieee) :=
  series.filter fun s => s.name = name && usable s

/-- Whether a row counts: all do, unless some bucket is an explicit total.
SOURCE: lss-core/src/hist.rs:84-85 -/
def keeps (rows : List (Series Ieee)) (s : Series Ieee) : Bool :=
  !(rows.any fun r => label r "priority" = some "") || label s "priority" = some ""

/-- SOURCE: lss-core/src/hist.rs:87-90 -/
def boundOf (le : String) : Option Ieee :=
  if le = "+Inf" ∨ le = "Inf" then some (.infinite false) else Ieee.parse le.toList

/-- A count goes to the bound it equals, or behind all.
SOURCE: lss-core/src/hist.rs:91-94 -/
def addBound (le : Ieee) (count : ℚ) : List (Ieee × ℚ) → List (Ieee × ℚ)
  | [] => [(le, count)]
  | b :: bounds =>
    if b.1.same le then (b.1, b.2 + count) :: bounds else b :: addBound le count bounds

/-- SOURCE: lss-core/src/hist.rs:86-95 -/
def readBounds (rows : List (Series Ieee)) : Option (List (Ieee × ℚ)) :=
  rows.foldlM (fun bounds s => do
    let le ← boundOf (← label s "le")
    return addBound le (s.value.value?.getD 0) bounds) []

/-- A bucket for everything, where the last one is not.
SOURCE: lss-core/src/hist.rs:97-101 -/
def closeBounds (bounds : List (Ieee × ℚ)) : List (Ieee × ℚ) :=
  if bounds.getLast?.all fun b => b.1.isFinite then
    bounds ++ [(.infinite false, (bounds.getLast?.map Prod.snd).getD 0)]
  else bounds

/-- The rows that carry a label.
SOURCE: lss-core/src/hist.rs:73-76 -/
def carrying (series : List (Series Ieee)) (only : Option (String × String)) :
    List (Series Ieee) :=
  match only with
  | some (k, v) => series.filter fun s => label s k = some v
  | none => series

/-- The bucket rows that count.
SOURCE: lss-core/src/hist.rs:80-87 -/
def bucketRows (series : List (Series Ieee)) (family : String) : List (Series Ieee) :=
  let rows := named series (family ++ "_bucket")
  rows.filter (keeps rows)

/-- SOURCE: lss-core/src/hist.rs:102-105 -/
def scalar (series : List (Series Ieee)) (family suffix : String) : ℚ :=
  let rows := named series (family ++ "_bucket")
  (((named series (family ++ "_" ++ suffix)).filter (keeps rows)).filterMap
    fun s => s.value.value?).sum

/-- One scrape of a histogram, from the rows of a page.
SOURCE: lss-core/src/hist.rs:72-113 -/
def extractHistogramWhere (series : List (Series Ieee)) (family : String)
    (only : Option (String × String)) : Option HistSnapshot :=
  let series := carrying series only
  if named series (family ++ "_bucket") = [] then none
  else (readBounds (bucketRows series family)).map fun bounds =>
    let bounds := closeBounds (bounds.mergeSort fun a b => a.1.totalLe b.1)
    { le := bounds.filterMap fun b => b.1.value?
      cum := bounds.map Prod.snd
      sum := scalar series family "sum"
      count := scalar series family "count" }

end Lss.Model.HistExtract
