import Lss.Model.Canvas
import Lss.Model.Doubles
import Lss.Model.Hist

/-!
# The charts of a page

A series is squeezed into the columns of its chart and drawn there, as one connected line or as
dots. Under the chart stands its time axis.
-/

set_option autoImplicit false

namespace Lss.Model

/-! ## Numbers on their way to a place -/

namespace Ieee

/-- The lower of two numbers: what is no number is passed over. -/
def min (a b : Ieee) : Ieee :=
  if b.le a then b
  else
    match a with
    | nan _ => b
    | a => a

/-- A number kept between zero and one; what is no number stays what it is. -/
def clampUnit (v : Ieee) : Ieee :=
  if F64.lt v (finite 0) then finite 0 else if F64.lt (finite 1) v then finite 1 else v

/-- The nearest whole number, a half away from zero. -/
def round : Ieee → Ieee
  | finite v => finite (roundHalfAway v)
  | v => v

/-- A number cut down to the range of the unsigned integers. -/
def asUsize : Ieee → ℕ
  | finite v => Nat.min ⌊v⌋.toNat (2 ^ 64 - 1)
  | infinite s => if s then 0 else 2 ^ 64 - 1
  | nan _ => 0

end Ieee

/-! ## Series -/

/-- One series of a chart.

SOURCE: lss/src/ui/widgets.rs:288-297 -/
structure ChartSeries (κ : Type) where
  label : String
  colour : κ
  data : List (Option Ieee)
  /-- scaled on its own lowest and highest value instead of the axis of the chart -/
  ownScale : Bool := false
  /-- joined across the gaps, each point drawn fat -/
  sparse : Bool := false

/-- A mark on the time axis.

SOURCE: lss/src/ui/widgets.rs:309-315 -/
structure Marker (κ : Type) where
  /-- from zero to one along the axis -/
  at_ : Ieee
  glyph : Char
  style : κ

/-- SOURCE: lss/src/ui/widgets.rs:317-328 -/
structure ChartOpts (κ : Type) where
  fmt : Ieee → String
  yMin : Option Ieee := none
  yMax : Option Ieee := none
  /-- the left end of the time axis -/
  xLeft : String
  markers : List (Marker κ) := []
  /-- where a column has several points it keeps the highest of them, and else their mean -/
  peak : Bool := false

/-- SOURCE: lss/src/ui/widgets.rs:400-404 -/
def bounds (data : List (Option Ieee)) : Option (Ieee × Ieee) :=
  match data.reduceOption.filter Ieee.isFinite with
  | [] => none
  | first :: rest =>
    some (rest.foldl (fun b v => (b.1.min v, F64.max b.2 v)) (first, first))

/-- The scale of a series that has its own.

SOURCE: lss/src/ui/widgets.rs:720-722 -/
def ownBounds (data : List (Option Ieee)) : Ieee × Ieee :=
  let (a, b) := (bounds data).getD (.finite 0, .finite 1)
  if F64.lt (b - a) (F64.lit (1 / 10 ^ 9)) then (a - F64.lit (1 / 2), a + F64.lit (1 / 2))
  else (a, b)

/-- The points that a column stands for, where there are more points than columns.

SOURCE: lss/src/ui/widgets.rs:255-256 -/
def sliceOf (n width c : ℕ) : ℕ × ℕ :=
  let a := c * n / width
  (a, min (max ((c + 1) * n / width) (a + 1)) n)

/-- The values a column stands for. -/
def sliceValues (data : List (Option Ieee)) (width c : ℕ) : List Ieee :=
  let (a, b) := sliceOf data.length width c
  ((data.take b).drop a).reduceOption

/-- SOURCE: lss/src/ui/widgets.rs:246-260 -/
def resampleMax (data : List (Option Ieee)) (width : ℕ) : List (Option Ieee) :=
  if width = 0 ∨ data = [] then []
  else if data.length ≤ width then data
  else (List.range width).map fun c =>
    (sliceValues data width c).foldl
      (fun m v => some (m.elim v fun x => F64.max x v)) none

/-- SOURCE: lss/src/ui/widgets.rs:331-343 -/
def resampleMean (data : List (Option Ieee)) (width : ℕ) : List (Option Ieee) :=
  if width = 0 ∨ data.length ≤ width then data
  else (List.range width).map fun c =>
    let v := sliceValues data width c
    if v = [] then none else some (v.foldl (· + ·) (.finite 0) / F64.ofNat v.length)

/-- One value for each column.

SOURCE: lss/src/ui/widgets.rs:726 -/
def resample {κ : Type} (opts : ChartOpts κ) (data : List (Option Ieee)) (width : ℕ) :
    List (Option Ieee) :=
  if opts.peak then resampleMax data width else resampleMean data width

section Resample

variable {κ : Type} (opts : ChartOpts κ) {data : List (Option Ieee)} {width : ℕ}

/-- Where there is room for all the points they are left as they are. -/
theorem resample_of_le (wide : 0 < width) (few : data.length ≤ width) :
    resample opts data width = data := by
  have room : width = 0 ∨ data = [] ↔ data = [] := by simp [wide.ne']
  unfold resample resampleMax resampleMean
  rw [if_pos few, if_pos (Or.inr few)]
  simp only [room]
  split_ifs with peak empty
  · exact empty.symm
  · rfl
  · rfl

/-- Where there is not, each column has what its slice comes to. -/
theorem resample_of_lt (wide : 0 < width) (many : width < data.length) :
    resample opts data width = (List.range width).map fun c =>
      if opts.peak then
        (sliceValues data width c).foldl (fun m v => some (m.elim v fun x => F64.max x v)) none
      else
        let v := sliceValues data width c
        if v = [] then none else some (v.foldl (· + ·) (.finite 0) / F64.ofNat v.length) := by
  have filled : data ≠ [] := List.ne_nil_of_length_pos (by omega)
  have squeezed : ¬ (width = 0 ∨ data.length ≤ width) := by omega
  unfold resample
  split_ifs with peak
  · rw [resampleMax, if_neg (by simp [wide.ne', filled]), if_neg (by omega)]
  · rw [resampleMean, if_neg squeezed]

theorem length_resample (wide : 0 < width) :
    (resample opts data width).length = min data.length width := by
  by_cases few : data.length ≤ width
  · rw [resample_of_le opts wide few, min_eq_left few]
  · rw [resample_of_lt opts wide (not_le.mp few), List.length_map, List.length_range]
    omega

end Resample

/-! ## A line -/

/-- What stands in each row and column of a panel. -/
abbrev Grid := ℕ → ℕ → Option Char

namespace Grid

def put (g : Grid) (row col : ℕ) (ch : Char) : Grid :=
  fun r c => if r = row ∧ c = col then some ch else g r c

/-- The same character in several rows of a column. -/
def putRows (g : Grid) (rows : List ℕ) (col : ℕ) (ch : Char) : Grid :=
  rows.foldl (fun g row => g.put row col ch) g

theorem put_apply (g : Grid) (row col : ℕ) (ch : Char) (r c : ℕ) :
    g.put row col ch r c = if r = row ∧ c = col then some ch else g r c :=
  rfl

theorem putRows_apply (g : Grid) (rows : List ℕ) (col : ℕ) (ch : Char) (r c : ℕ) :
    g.putRows rows col ch r c = if r ∈ rows ∧ c = col then some ch else g r c := by
  induction rows generalizing g with
  | nil => simp [putRows]
  | cons row rows ih =>
      change (g.put row col ch).putRows rows col ch r c = _
      rw [ih, put_apply]
      by_cases here : r ∈ rows ∧ c = col
      · rw [if_pos here, if_pos ⟨List.mem_cons_of_mem _ here.1, here.2⟩]
      · rw [if_neg here]
        by_cases first : r = row ∧ c = col
        · rw [if_pos first, if_pos ⟨by simp [first.1], first.2⟩]
        · rw [if_neg first, if_neg (by rw [List.mem_cons]; tauto)]

end Grid

/-- The row a value stands in.

SOURCE: lss/src/ui/widgets.rs:727 -/
def rowOf (scale : Ieee × Ieee) (panelH : ℕ) (v : Ieee) : ℕ :=
  let part := ((v - scale.1) / F64.max (scale.2 - scale.1) (F64.lit (1 / 10 ^ 9))).clampUnit
  ((Ieee.finite 1 - part) * F64.ofNat (panelH - 1)).round.asUsize

/-- A column of the line, from the row the line came in to the row of its value.

SOURCE: lss/src/ui/widgets.rs:735-759 -/
def drawColumn (grid : Grid) (prev : Option (ℕ × ℕ)) (col row : ℕ) : Grid :=
  match prev with
  | none => grid.put row col '─'
  | some (_, prow) =>
    if prow = row then grid.put row col '─'
    else if row < prow then
      ((grid.put prow col '╯').put row col '╭').putRows
        (List.range' (row + 1) (prow - (row + 1))) col '│'
    else
      ((grid.put prow col '╮').put row col '╰').putRows
        (List.range' (prow + 1) (row - (prow + 1))) col '│'

/-- The grid so far, and the column and the row of the last point when it was a real one.

SOURCE: lss/src/ui/widgets.rs:730-763 -/
def drawStep (row : Ieee → ℕ) (drawn : Grid × Option (ℕ × ℕ)) (point : Option Ieee × ℕ) :
    Grid × Option (ℕ × ℕ) :=
  match point.1.filter Ieee.isFinite with
  | none => (drawn.1, none)
  | some v => (drawColumn drawn.1 drawn.2 point.2 (row v), some (point.2, row v))

/-- SOURCE: lss/src/ui/widgets.rs:728-763 -/
def panelGrid (row : Ieee → ℕ) (data : List (Option Ieee)) : Grid :=
  (data.zipIdx.foldl (drawStep row) (fun _ _ => none, none)).1

/-- A text in one colour, or dim. -/
structure Span (κ : Type) where
  text : String
  colour : Option κ

/-- A text pushed to the right, and a blank. -/
def labelText (width : ℕ) (label : String) : String :=
  String.ofList (List.leftpad width ' ' label.toList) ++ " "

/-- SOURCE: lss/src/ui/widgets.rs:766 -/
def rowLabel (panelH : ℕ) (labels : String × String × String) (r : ℕ) : String :=
  if r = 0 then labels.1
  else if r = panelH - 1 then labels.2.2
  else if r = panelH / 2 ∧ 5 ≤ panelH then labels.2.1
  else ""

/-- SOURCE: lss/src/ui/widgets.rs:716-780 -/
def panelRows {κ : Type} (s : ChartSeries κ) (panelW panelH : ℕ) (scale : Ieee × Ieee)
    (opts : ChartOpts κ) (yGutter : ℕ) (labels : String × String × String) :
    List (List (Span κ)) :=
  if panelW = 0 ∨ panelH = 0 then []
  else
    let scale := if s.ownScale then ownBounds s.data else scale
    let grid := panelGrid (rowOf scale panelH) (resample opts s.data panelW)
    (List.range panelH).map fun r =>
      let label := if 0 < yGutter then
        [⟨labelText (yGutter - 1) (rowLabel panelH labels r), none⟩] else []
      let line := String.ofList ((List.range panelW).map fun c => (grid r c).getD ' ')
      label ++ [⟨line, some s.colour⟩]

/-! ## Dots -/

/-- A whole number on the way to the coordinates of a canvas, which fit into theirs. -/
def Ieee.asI64 : Ieee → ℤ
  | finite v => ⌊v⌋
  | infinite s => if s then -2 ^ 63 else 2 ^ 63 - 1
  | nan _ => 0

/-- The dot column of a point, when so many points are spread over so many dot columns. Both counts
are exact as doubles.

SOURCE: lss/src/ui/widgets.rs:487-488 -/
def dotColumn (dotsW n i : ℕ) : ℤ :=
  roundHalfAway ((i : ℚ) / ((n - 1 : ℕ) : ℚ) * (dotsW - 1))

/-- SOURCE: lss/src/ui/widgets.rs:486-490 -/
def dotAt (dotsW dotsH n : ℕ) (scale : Ieee × Ieee) (i : ℕ) (v : Ieee) : ℤ × ℤ :=
  let part := ((v - scale.1) / (scale.2 - scale.1)).clampUnit
  (dotColumn dotsW n i,
    ((Ieee.finite 1 - part) * (F64.ofNat dotsH - .finite 1)).round.asI64)

def toDot (p : ℤ × ℤ) : Dot := (Int64.ofInt p.1, Int64.ofInt p.2)

/-- The dots next to one that is drawn fat. -/
def fatDots : List (ℤ × ℤ) := [(1, 0), (0, 1), (1, 1), (-1, 0), (0, -1)]

/-- One point: the canvas, and the point that a line comes from.

SOURCE: lss/src/ui/widgets.rs:492-507 -/
def plotStep {κ : Type} (rounds : ℕ) (s : ChartSeries κ) (place : ℕ → Ieee → ℤ × ℤ)
    (plotted : Canvas κ × Option (ℤ × ℤ)) (point : Option Ieee × ℕ) :
    Option (Canvas κ × Option (ℤ × ℤ)) :=
  match point.1.filter Ieee.isFinite with
  | some v =>
    let p := place point.2 v
    (plotted.1.segment rounds (toDot (plotted.2.getD p)) (toDot p) s.colour).map fun canvas =>
      (if s.sparse then
        fatDots.foldl (fun canvas d => canvas.dot (toDot (p + d)) s.colour) canvas
      else canvas, some p)
  | none => some (plotted.1, if s.sparse then plotted.2 else none)

/-- One series on a canvas of so many cells, or none while a loop has not ended.

SOURCE: lss/src/ui/widgets.rs:476-508 -/
def plotSeries {κ : Type} (rounds : ℕ) (canvas : Canvas κ) (s : ChartSeries κ) (plotW plotH : ℕ)
    (scale : Ieee × Ieee) (opts : ChartOpts κ) : Option (Canvas κ) :=
  let scale := if s.ownScale then ownBounds s.data else scale
  let data := resample opts s.data (plotW * 2)
  let place := dotAt (plotW * 2) (plotH * 4) (max data.length 2) scale
  (data.zipIdx.foldlM (plotStep rounds s place) (canvas, none)).map Prod.fst

/-! ## The time axis -/

/-- The column of a mark on the axis.

SOURCE: lss/src/ui/widgets.rs:786 -/
def markerColumn (plotW : ℕ) (at_ : Ieee) : ℕ :=
  match at_.clampUnit with
  | .finite q => (roundHalfAway (q * ((plotW - 1 : ℕ) : ℚ))).toNat
  | _ => 0

/-- SOURCE: lss/src/ui/widgets.rs:793-799 -/
def putText {κ : Type} (cells : List (Char × Option κ)) (start : ℕ) (text : String) :
    List (Char × Option κ) :=
  text.toList.zipIdx.foldl (fun cells ch => cells.set (start + ch.2) (ch.1, none)) cells

/-- The cells of the axis, a style beside each that is not dim.

SOURCE: lss/src/ui/widgets.rs:783-801 -/
def timeAxis {κ : Type} (plotW : ℕ) (opts : ChartOpts κ) : List (Char × Option κ) :=
  let cells := List.replicate plotW ('─', none)
  let cells := opts.markers.foldl
    (fun cells m => cells.set (markerColumn plotW m.at_) (m.glyph, some m.style)) cells
  putText (putText cells 0 (opts.xLeft ++ " ")) (plotW - 4) " now"

end Lss.Model
