import Lss.Library.Rectangles
import Lss.Model.Screen

/-!
# The layout of the overview

Where the areas of the overview stand on a screen of a given size. How many rows an area has to say
is a parameter where it is the length of a text.
-/

set_option autoImplicit false

namespace Lss.Model.Overview

open Lss.Library.Rectangles Lss.Model.Screen

/-- How an area is shown: as a box, as a bar of one line, or as one bar for all areas from a place
of the list of bars on.
SOURCE: lss/src/ui/overview.rs:33-40 -/
inductive Slot where
  | boxed (r : Rect)
  | bar (r : Rect)
  | more (r : Rect) (start : ℕ)

/-- Where a slot is. -/
def Slot.rect : Slot → Rect
  | boxed r => r
  | bar r => r
  | more r _ => r

@[simp] theorem Slot.rect_boxed (r : Rect) : (boxed r).rect = r := rfl

@[simp] theorem Slot.rect_bar (r : Rect) : (bar r).rect = r := rfl

@[simp] theorem Slot.rect_more (r : Rect) (start : ℕ) : (more r start).rect = r := rfl

/-- The areas with their slots. -/
abbrev Slots := List (Panel × Slot)

/-- The rectangles of the slots. -/
def rects (slots : Slots) : List Rect := slots.map fun p => p.2.rect

/-- Top to bottom.
SOURCE: lss/src/ui/mod.rs:109 -/
def allPanels : List Panel := [.serve, .gpus, .lanes, .users, .advice, .incidents, .alerts]

/-- The bars under the status card.
SOURCE: lss/src/ui/overview.rs:61 -/
def minimizedBars : List Panel := [.users, .gpus, .lanes, .advice, .incidents, .alerts]

/-- What the layout reads of a status: how many there are of some things, and how many lines the
text of an area has at a width.
SOURCE: lss/src/ui/overview.rs:195-225 -/
structure Content where
  gpus : ℕ
  gateAbsent : Bool
  incidents : ℕ
  alerts : ℕ
  lines : Panel → ℕ → ℕ

/-- Are the GPUs shown as one row each?
SOURCE: lss/src/ui/overview.rs:184-186 -/
def gpuRowsMode (width height n : ℕ) : Bool :=
  decide (0 < n ∧ 22 ≤ width ∧ width / n < 14 ∧ n ≤ height)

/-- SOURCE: lss/src/ui/overview.rs:189-191 -/
def laneLinesMode (width height : ℕ) : Bool := decide (width < 56 ∧ 4 ≤ height)

/-- The fewest rows of text of an area, and all of them.
SOURCE: lss/src/ui/overview.rs:195-225 -/
def rowsWanted (t : Content) (p : Panel) (iw : ℕ) : ℕ × ℕ :=
  match p with
  | .serve => (2, t.lines .serve iw)
  | .gpus =>
    let n := max t.gpus 1
    if gpuRowsMode iw 99 n then (n, n + 1)
    else
      let perRow := if 7 ≤ iw / n then n else (n + 1) / 2
      let rows := (n + max perRow 1 - 1) / max perRow 1
      (3 * rows, 7 * rows + 1)
  | .lanes =>
    if t.gateAbsent then (1, 2 + (if iw < 64 then 1 else 0) + (if iw < 40 then 1 else 0))
    else if laneLinesMode iw 99 then (3, 6)
    else (3, if 54 ≤ iw then 11 else 9)
  | .users => (2, t.lines .users iw)
  | .advice => (1, t.lines .advice iw)
  | .incidents => (1, t.lines .incidents iw)
  | .alerts => (1, t.lines .alerts iw)

/-! ## Stacking -/

/-- An area of a stack: the fewest rows and all rows of its box, its height now, and whether it is
a box. -/
structure Part where
  panel : Panel
  fewest : ℕ
  most : ℕ
  h : ℕ := 1
  boxed : Bool := false

/-- Everything starts as a bar.
SOURCE: lss/src/ui/overview.rs:233-236 -/
def bars (t : Content) (iw : ℕ) (panels : List Panel) : List Part :=
  panels.map fun p =>
    let wanted := rowsWanted t p iw
    { panel := p, fewest := wanted.1 + 2, most := max wanted.2 wanted.1 + 2 }

/-- Areas become boxes in order while their fewest rows fit.
SOURCE: lss/src/ui/overview.rs:237-244 -/
def promote (height : ℕ) : ℕ → List Part → ℕ × List Part
  | used, [] => (used, [])
  | used, p :: ps =>
    if used - 1 + p.fewest ≤ height then
      let r := promote height (used - 1 + p.fewest) ps
      (r.1, { p with h := p.fewest, boxed := true } :: r.2)
    else
      let r := promote height used ps
      (r.1, p :: r.2)

/-- One row for each box that has less than it wants, while there are rows.
SOURCE: lss/src/ui/overview.rs:250-256 -/
def growRound : ℕ → List Part → ℕ × List Part
  | spare, [] => (spare, [])
  | spare, p :: ps =>
    if p.boxed ∧ 0 < spare ∧ p.h < p.most then
      let r := growRound (spare - 1) ps
      (r.1, { p with h := p.h + 1 } :: r.2)
    else
      let r := growRound spare ps
      (r.1, p :: r.2)

/-- Round after round, as long as there are rows and the last round has used one. A round uses at
least one row, so that as many rounds as there are rows are enough.
SOURCE: lss/src/ui/overview.rs:246-257 -/
def grow : ℕ → ℕ × List Part → ℕ × List Part
  | 0, s => s
  | fuel + 1, s =>
    if 0 < s.1 then
      let r := growRound s.1 s.2
      if r.1 < s.1 then grow fuel r else r
    else s

/-- At most some rows for an area, where it is a box.
SOURCE: lss/src/ui/overview.rs:258-273 -/
def give (p : Panel) (most : ℕ) : ℕ × List Part → ℕ × List Part
  | (spare, []) => (spare, [])
  | (spare, q :: qs) =>
    if q.panel = p then
      if q.boxed then (spare - min spare most, { q with h := q.h + min spare most } :: qs)
      else (spare, q :: qs)
    else
      let r := give p most (spare, qs)
      (r.1, q :: r.2)

/-- Is an area a box of the stack?
SOURCE: lss/src/ui/overview.rs:258 -/
def boxedIn (parts : List Part) (p : Panel) : Bool :=
  (parts.find? fun q => q.panel = p).any Part.boxed

/-- The area that takes the rows that nobody wants.
SOURCE: lss/src/ui/overview.rs:275 -/
def taker (stretch : List (Panel × ℕ)) (parts : List Part) : Option Panel :=
  ((stretch.map Prod.fst).find? (boxedIn parts)).or
    ((parts.reverse.find? Part.boxed).map Part.panel)

/-- The heights of a stack, and the rows that are left.
SOURCE: lss/src/ui/overview.rs:232-278 -/
def heights (t : Content) (height iw : ℕ) (panels : List Panel) (stretch : List (Panel × ℕ)) :
    ℕ × List Part :=
  let boxes := promote height panels.length (bars t iw panels)
  let spare := height - boxes.1
  let grown := grow spare (spare, boxes.2)
  let stretched := stretch.foldl (fun s q => give q.1 q.2 s) grown
  let lists := [(Panel.incidents, t.incidents - 8), (Panel.alerts, t.alerts - 6)].foldl
    (fun s q => give q.1 q.2 s) stretched
  if 0 < lists.1 then (taker stretch lists.2).elim lists fun p => give p lists.1 lists else lists

/-- The parts one under the other, as far as there are rows.
SOURCE: lss/src/ui/overview.rs:279-289 -/
def place (area : Rect) : ℕ → List Part → Slots
  | _, [] => []
  | y, p :: ps =>
    if area.y + area.height ≤ y then []
    else
      let r : Rect := { area with y := y, height := min p.h (area.y + area.height - y) }
      (p.panel, if p.boxed then .boxed r else .bar r) :: place area (y + r.height) ps

/-- Areas one under the other.
SOURCE: lss/src/ui/overview.rs:232-290 -/
def stack (t : Content) (area : Rect) (panels : List Panel) (stretch : List (Panel × ℕ)) : Slots :=
  place area area.y (heights t area.height (area.width - 2) panels stretch).2

/-! ## Plans -/

/-- Columns side by side; the last one takes what the division leaves.
SOURCE: lss/src/ui/overview.rs:292-295 -/
def splitH (area : Rect) (parts : ℕ) : List Rect :=
  let w := area.width / parts
  (List.range parts).map fun i =>
    { area with
      x := area.x + i * w
      width := if i = parts - 1 then area.width - w * (parts - 1) else w }

/-- The bar at a row under the card.
SOURCE: lss/src/ui/overview.rs:397 -/
def barAt (body : Rect) (cardH i : ℕ) : Rect := { body with y := body.y + cardH + i, height := 1 }

/-- The height of the card.
SOURCE: lss/src/ui/overview.rs:388-394 -/
def cardHeight (height : ℕ) : ℕ :=
  if 5 + minimizedBars.length ≤ height then height - minimizedBars.length
  else if 6 ≤ height then 5
  else height

/-- How many areas have a bar of their own.
SOURCE: lss/src/ui/overview.rs:399 -/
def ownBars (rows : ℕ) : ℕ :=
  if minimizedBars.length - 1 ≤ rows then min rows minimizedBars.length else rows - 1

/-- One status card, and the rest as bars.
SOURCE: lss/src/ui/overview.rs:382-407 -/
def focusPlan (body : Rect) : Slots :=
  if body.height < 3 then [(.serve, .bar { body with height := min 1 body.height })]
  else
    let cardH := cardHeight body.height
    let rows := body.height - cardH
    let own := ownBars rows
    (Panel.serve, Slot.boxed { body with height := cardH }) ::
      ((minimizedBars.take own).zipIdx.map fun p => (p.1, Slot.bar (barAt body cardH p.2))) ++
      (if own < rows then
        (minimizedBars[own]?).toList.map fun p => (p, .more (barAt body cardH own) own)
      else [])

/-- Three rows of two boxes, and the alerts.
SOURCE: lss/src/ui/overview.rs:300-321 -/
def gridPlan (t : Content) (body : Rect) : Slots :=
  let alertsH := max (min (3 + min (max t.alerts 1) 4) (body.height / 5)) 3
  let gridH := body.height - alertsH
  let lowH := min (max (gridH * 3 / 10) 5) 10
  let topH := min (max ((gridH - lowH) / 2) 8) 15
  let midH := gridH - lowH - topH
  let top := splitH { body with height := topH } 2
  let mid := splitH { body with y := body.y + topH, height := midH } 2
  let low := splitH { body with y := body.y + topH + midH, height := lowH } 2
  let strip : Rect := { body with y := body.y + gridH, height := alertsH }
  ([Panel.serve, .gpus].zip (top.map Slot.boxed)) ++ ([Panel.lanes, .users].zip (mid.map Slot.boxed)) ++
    ([Panel.advice, .incidents].zip (low.map Slot.boxed)) ++ [(.alerts, .boxed strip)]

/-- How high the row under the columns is.
SOURCE: lss/src/ui/overview.rs:327-329 -/
def bottomHeight (t : Content) (body : Rect) : ℕ :=
  let halfIw := body.width / 2 - 2
  let lists := max (rowsWanted t .incidents halfIw).2 (rowsWanted t .alerts halfIw).2
  if 22 ≤ body.height then max (min (lists + 2) (body.height - 17)) 3
  else if 120 ≤ body.width then 1
  else 2

/-- The row under the columns.
SOURCE: lss/src/ui/overview.rs:331, 335-343 -/
def bottomPlan (bottom : Rect) : Slots :=
  if bottom.height = 2 then
    [(.incidents, .bar { bottom with height := 1 }),
      (.alerts, .bar { bottom with y := bottom.y + 1, height := 1 })]
  else
    [Panel.incidents, .alerts].zip ((splitH bottom 2).map
      (if 3 ≤ bottom.height then Slot.boxed else Slot.bar))

/-- Three columns over a row of lists.
SOURCE: lss/src/ui/overview.rs:322-345 -/
def columnsPlan (t : Content) (body : Rect) : Slots :=
  let bottomH := bottomHeight t body
  let upper : Rect := { body with height := body.height - bottomH }
  let bottom : Rect := { body with y := body.y + body.height - bottomH, height := bottomH }
  match splitH upper 3 with
  | [left, middle, right] =>
    (Panel.serve, Slot.boxed left) :: stack t middle [.gpus, .advice] [(.gpus, 65535)] ++
      stack t right [.lanes, .users] [(.lanes, 65535)] ++ bottomPlan bottom
  | _ => []

/-- The areas under the row of two boxes; where there are few rows, the incidents carry the alerts.
SOURCE: lss/src/ui/overview.rs:352-353 -/
def smallRest (height : ℕ) : List Panel :=
  let all : List Panel := [.lanes, .users, .advice, .incidents, .alerts]
  if height < 5 + all.length then all.take 4 else all

/-- The height of the row of two boxes.
SOURCE: lss/src/ui/overview.rs:354-357 -/
def rowHeight (height : ℕ) : ℕ :=
  let want := max (min (if 26 ≤ height then 10 else 8) (height - 3)) 4
  max (min want (height - (smallRest height).length)) 4

/-- The columns that the box of the GPUs takes from the other one.
SOURCE: lss/src/ui/overview.rs:363-370 -/
def taken (gpus left right : ℕ) : ℕ :=
  let need := max gpus 1 * 8 + 2
  if right < need ∧ need - right ≤ 3 ∧ 24 < left then need - right else 0

/-- A row of two boxes, and the rest under it.
SOURCE: lss/src/ui/overview.rs:350-374 -/
def smallPlan (t : Content) (body : Rect) : Slots :=
  let rowH := rowHeight body.height
  let below : Rect := { body with y := body.y + rowH, height := body.height - rowH }
  match splitH { body with height := rowH } 2 with
  | [left, right] =>
    let take := taken t.gpus left.width right.width
    (Panel.serve, Slot.boxed { left with width := left.width - take }) ::
      (Panel.gpus, Slot.boxed { right with x := right.x - take, width := right.width + take }) ::
      stack t below (smallRest body.height) [(.lanes, 4)]
  | _ => []

/-- The ways to lay out the overview. -/
inductive Layout where
  | grid
  | columns
  | stacked
  | card
  | small
deriving DecidableEq

/-- The way that a shape is laid out where there is room for it; a pinned shape may have less.
SOURCE: lss/src/ui/overview.rs:299-376 -/
def layout (shape : Shape) (body : Rect) : Layout :=
  if shape = .halfH ∧ 24 ≤ body.height ∧ 60 ≤ body.width then .grid
  else if shape = .thirdH ∧ 12 ≤ body.height ∧ 90 ≤ body.width then .columns
  else if (shape = .halfV ∨ shape = .thirdV) ∧ 12 ≤ body.height then .stacked
  else if shape = .focus then .card
  else if 40 ≤ body.width ∧ 7 ≤ body.height then .small
  else .card

/-- Where the areas stand.
SOURCE: lss/src/ui/overview.rs:297-377 -/
def plan (t : Content) (shape : Shape) (body : Rect) : Slots :=
  match layout shape body with
  | .grid => gridPlan t body
  | .columns => columnsPlan t body
  | .stacked => stack t body allPanels [(.serve, 8), (.gpus, 6), (.lanes, 4)]
  | .card => focusPlan body
  | .small => smallPlan t body

/-! ## Frames -/

/-- Which lines there are besides the areas: a warning about the collector, the fleet, the
targets. -/
structure Lines where
  warned : Bool
  fleet : Bool
  targets : Bool

/-- How many lines stand between the head and the areas where there is room.
SOURCE: lss/src/ui/overview.rs:75 -/
def strips (l : Lines) (shape : Shape) (height : ℕ) : ℕ :=
  let fleet := l.fleet && decide (12 ≤ height) && decide (shape ≠ .focus)
  let targets := l.targets && (decide (25 ≤ height) ||
    decide (20 ≤ height) && decide (shape ∈ [Shape.thirdH, .thirdV, .halfV, .halfH]))
  fleet.toNat + targets.toNat

/-- Lines are taken from the top as long as six rows are there.
SOURCE: lss/src/ui/overview.rs:76-82 -/
def takeStrips : ℕ → Rect → List Rect × Rect
  | 0, body => ([], body)
  | n + 1, body =>
    if body.height < 6 then ([], body)
    else
      let r := takeStrips n { body with y := body.y + 1, height := body.height - 1 }
      ({ body with height := 1 } :: r.1, r.2)

/-- Everything that is drawn: the head, the strips, the foot and the areas. The card has the head in
its border, so that only a warning stands above it.
SOURCE: lss/src/ui/overview.rs:63-125; lss/src/ui/mod.rs:964-995 -/
def frame (t : Content) (l : Lines) (shape : Shape) (area : Rect) : List Rect :=
  if area.height < 3 then [area]
  else
    let head := if shape = .focus then l.warned.toNat else 1
    let below : Rect := { area with y := area.y + head, height := area.height - head }
    let taken := takeStrips (strips l shape area.height) below
    let body := taken.2
    let above := { area with height := head } :: taken.1
    if body.height < 2 then above
    else
      let foot : Rect := { body with y := body.y + body.height - 1, height := 1 }
      above ++ foot :: rects (plan t shape { body with height := body.height - 1 })

end Lss.Model.Overview
