import Lss.Library.Table
import Lss.Model.HomeRates
import Lss.Model.Hist

/-!
# The stored latency windows

The bucket counts of a window are kept as a text of the buckets that saw something, its bounds as
a text that many windows share. Numbers are exact; the text of a bound is what the language
displays, the shortest that reads back as the same number.
-/

set_option autoImplicit false

namespace Lss.Model

open Lss.Library

/-! ## Texts -/

/-- The index of a bucket. One past the buckets is passed over, so how large a number the machine
can read decides nothing. -/
def readIndex (t : List Char) : Option ℕ :=
  let digits := if t.head? = some '+' then t.tail else t
  if digits = [] ∨ ¬digits.all Char.isDigit then none else some (Nat.ofDigitChars 10 digits 0)

/-- A number as it was stored. Everything stored is finite. -/
def readFinite (t : List Char) : Option ℚ :=
  match parseDouble t with
  | some (.finite v) => some v
  | _ => none

namespace HistAccum

/-- The index of a bucket and its count.
SOURCE: lss-core/src/hist.rs:262 -/
def encodeCount (count : ℚ) (i : ℕ) : List Char :=
  Nat.toDigits 10 i ++ ':' :: (fixedDecimals 0 count).toList

/-- SOURCE: lss-core/src/hist.rs:261-264 -/
def encodeCounts (h : HistAccum) : String :=
  let pairs := (h.counts.zipIdx.filter fun p => 0 < p.1).map fun p => encodeCount p.1 p.2
  String.ofList ([','].intercalate pairs)

/-- One pair of the text: what does not read as a pair is passed over.
SOURCE: lss-core/src/hist.rs:268-273 -/
def addCount (out : List ℚ) (part : List Char) : List ℚ :=
  match part.dropWhile (· ≠ ':') with
  | [] => out
  | _ :: count =>
    match readIndex (part.takeWhile (· ≠ ':')), readFinite count with
    | some i, some c => out.modify i (· + c)
    | _, _ => out

/-- SOURCE: lss-core/src/hist.rs:266-277 -/
def decodeCounts (text : String) (buckets : ℕ) : List ℚ :=
  (text.toList.splitOn ',').foldl addCount (List.replicate buckets 0)

end HistAccum

/-- SOURCE: lss-core/src/hist.rs:284-286 -/
def decodeBounds (text : String) : List ℚ := (text.toList.splitOn ',').filterMap readFinite

/-! ## Tables -/

/-- A row of the table of windows.
SOURCE: lss-collector/src/db.rs:48-49 -/
structure HistRow where
  res : ℤ
  metric : String
  ts : ℤ
  /-- the id of the bounds -/
  bounds : ℕ
  counts : String
  sum : ℚ

/-- SOURCE: lss-collector/src/db.rs:49 -/
def HistRow.key (r : HistRow) : ℤ × String × ℤ := (r.res, r.metric, r.ts)

/-- The two tables of latency windows.
SOURCE: lss-collector/src/db.rs:47-49 -/
structure HistDb where
  /-- the texts of bounds there are; the place of one is its id -/
  histBounds : List String := []
  hist : List HistRow := []

section Display

-- the shortest text that reads back as the number
variable (display : ℚ → String)

/-- SOURCE: lss-core/src/hist.rs:280-282 -/
def encodeBounds (le : List ℚ) : String :=
  String.ofList ([','].intercalate (le.map fun b => (display b).toList))

namespace HistDb

/-- One histogram of a closed window, when it saw requests.
SOURCE: lss-collector/src/db.rs:396-408 -/
def writeHist (w : ClosedWindow) (db : HistDb) (p : String × HistAccum) : HistDb :=
  if p.2.isEmpty then db
  else
    let le := encodeBounds display p.2.le
    let bounds := if le ∈ db.histBounds then db.histBounds else db.histBounds ++ [le]
    { histBounds := bounds
      hist := Table.put HistRow.key db.hist
        ⟨w.res, p.1, w.ts, bounds.idxOf le, p.2.encodeCounts, p.2.sum⟩ }

/-- SOURCE: lss-collector/src/db.rs:394-410 -/
def writeHistWindow (db : HistDb) (w : ClosedWindow) : HistDb :=
  (histMetrics.zip w.accs.toList).foldl (writeHist display w) db

end HistDb

end Display

namespace HistDb

/-- A row as it is read back.
SOURCE: lss-collector/src/db.rs:418-426 -/
def readHist (db : HistDb) (r : HistRow) : ℤ × HistAccum :=
  let le := decodeBounds (db.histBounds[r.bounds]?.getD "")
  let counts := HistAccum.decodeCounts r.counts (le.length + 1)
  (r.ts, { le, counts, sum := r.sum, count := counts.sum })

/-- The stored windows of one histogram in a time, oldest first.
SOURCE: lss-collector/src/db.rs:412-429 -/
def histRows (db : HistDb) (res : ℤ) (metric : String) (since before : ℤ) :
    List (ℤ × HistAccum) :=
  let rows := db.hist.filter fun r =>
    r.res = res ∧ r.metric = metric ∧ since ≤ r.ts ∧ r.ts < before
  (rows.mergeSort fun r s => r.ts ≤ s.ts).map db.readHist

end HistDb

end Lss.Model
