import Lss.Library.Loop

/-!
# The canvas of a chart

A chart of dots is drawn on a grid of cells, two dots wide and four dots high each, and a line
between two dots is drawn dot after dot. Coordinates are machine integers: they wrap around.
-/

set_option autoImplicit false

namespace Lss.Model

open Lss.Library

/-- SOURCE: lss/src/ui/widgets.rs:345-350 -/
structure Canvas (κ : Type) where
  w : ℕ
  h : ℕ
  bits : List UInt8
  colour : List (Option κ)

/-- A place on the canvas: its column and its row. -/
abbrev Dot := Int64 × Int64

namespace Canvas

variable {κ : Type}

/-- SOURCE: lss/src/ui/widgets.rs:354-356 -/
def new (w h : ℕ) : Canvas κ :=
  ⟨w, h, List.replicate (w * h) 0, List.replicate (w * h) none⟩

/-- SOURCE: lss/src/ui/widgets.rs:364-373 -/
def bitOf (x y : Int64) : UInt8 :=
  match (x % 2).toInt, (y % 4).toInt with
  | 0, 0 => 0x01
  | 0, 1 => 0x02
  | 0, 2 => 0x04
  | 1, 0 => 0x08
  | 1, 1 => 0x10
  | 1, 2 => 0x20
  | 0, 3 => 0x40
  | _, _ => 0x80

/-- SOURCE: lss/src/ui/widgets.rs:358-375 -/
def dot (v : Canvas κ) (p : Dot) (c : κ) : Canvas κ :=
  if p.1 < 0 ∨ p.2 < 0 ∨ Int64.ofNat (v.w * 2) ≤ p.1 ∨ Int64.ofNat (v.h * 4) ≤ p.2 then v
  else
    let cx := (p.1 / 2).toInt.toNat
    let cy := (p.2 / 4).toInt.toNat
    { v with
      bits := v.bits.modify (cy * v.w + cx) (· ||| bitOf p.1 p.2)
      colour := v.colour.set (cy * v.w + cx) (some c) }

end Canvas

/-- A pen that draws a line: where it is, and how far off the line it is. -/
structure Pen where
  place : Dot
  err : Int64

/-- The way a line goes.

SOURCE: lss/src/ui/widgets.rs:379-380 -/
structure Way where
  dx : Int64
  dy : Int64
  sx : Int64
  sy : Int64
deriving DecidableEq

def wayFrom (a b : Dot) : Way where
  dx := (b.1 - a.1).abs
  dy := -(b.2 - a.2).abs
  sx := if a.1 < b.1 then 1 else -1
  sy := if a.2 < b.2 then 1 else -1

/-- SOURCE: lss/src/ui/widgets.rs:387-394 -/
def segmentStep (way : Way) (p : Pen) : Pen :=
  let e2 := 2 * p.err
  let p := if way.dy ≤ e2 then ⟨(p.place.1 + way.sx, p.place.2), p.err + way.dy⟩ else p
  if e2 ≤ way.dx then ⟨(p.place.1, p.place.2 + way.sy), p.err + way.dx⟩ else p

theorem segmentStep_column (way : Way) (p : Pen) :
    (segmentStep way p).place.1 =
      if way.dy ≤ 2 * p.err then p.place.1 + way.sx else p.place.1 := by
  unfold segmentStep
  by_cases hcol : way.dy ≤ 2 * p.err <;> by_cases hrow : 2 * p.err ≤ way.dx <;>
    simp only [hcol, hrow, if_true, if_false]

theorem segmentStep_row (way : Way) (p : Pen) :
    (segmentStep way p).place.2 =
      if 2 * p.err ≤ way.dx then p.place.2 + way.sy else p.place.2 := by
  unfold segmentStep
  by_cases hcol : way.dy ≤ 2 * p.err <;> by_cases hrow : 2 * p.err ≤ way.dx <;>
    simp only [hcol, hrow, if_true, if_false]

theorem segmentStep_err (way : Way) (p : Pen) :
    (segmentStep way p).err =
      (if way.dy ≤ 2 * p.err then p.err + way.dy else p.err) +
        if 2 * p.err ≤ way.dx then way.dx else 0 := by
  unfold segmentStep
  by_cases hcol : way.dy ≤ 2 * p.err <;> by_cases hrow : 2 * p.err ≤ way.dx <;>
    simp only [hcol, hrow, if_true, if_false, Int64.add_zero]

/-- The dots of a line in the order they are drawn, or none while the loop has not ended.

SOURCE: lss/src/ui/widgets.rs:377-397 -/
def segmentDots (rounds : ℕ) (a b : Dot) : Option (List Dot) :=
  let way := wayFrom a b
  (Loop.path (fun p => p.place = b) (segmentStep way) rounds ⟨a, way.dx + way.dy⟩).map
    (·.map Pen.place)

/-- SOURCE: lss/src/ui/widgets.rs:377-397 -/
def Canvas.segment {κ : Type} (v : Canvas κ) (rounds : ℕ) (a b : Dot) (c : κ) :
    Option (Canvas κ) :=
  (segmentDots rounds a b).map fun dots => dots.foldl (fun v p => v.dot p c) v

end Lss.Model
