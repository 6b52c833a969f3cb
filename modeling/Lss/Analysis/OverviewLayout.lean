import Lss.Analysis.OverviewStacks

/-!
# The overview fills the screen

Whatever layout is picked or pinned and whatever there is to say, the areas of the overview tile the
screen: no cell belongs to two of them, none is outside, and no row is left blank but for one, at two
heights. Which areas have no place is known from the height.
-/

set_option autoImplicit false

namespace Lss.Analysis.OverviewLayout

open Lss.Library.Rectangles Lss.Model.Screen Lss.Model.Overview Lss.Analysis.OverviewStacks

/-! ## What is asked for -/

/-- The rows that are left blank. -/
def blank (shape : Shape) (body : Rect) : ℕ :=
  match layout shape body with
  | .small => if body.height = 14 then 1 else 0
  | .card => if body.height = 2 then 1 else 0
  | _ => 0

/-- The areas that are on screen, in a slot of their own or behind the bar for the rest. -/
def shown (slots : Slots) : List Panel :=
  slots.flatMap fun p =>
    match p.2 with
    | .more _ start => minimizedBars.drop start
    | _ => [p.1]

/-- The areas that have no place. -/
def unseen (shape : Shape) (body : Rect) : List Panel :=
  match layout shape body with
  | .small =>
    if body.height = 7 then [.incidents, .alerts]
    else if body.height < 10 then [.alerts]
    else []
  | .card =>
    if body.height < 6 then minimizedBars
    else if body.height = 10 then [.alerts]
    else []
  | _ => []

/-! ## Columns -/

theorem splitH_two (area : Rect) :
    splitH area 2 = [{ area with width := area.width / 2 },
      { area with x := area.x + area.width / 2, width := area.width - area.width / 2 }] := by
  simp [splitH, List.range_succ]

theorem splitH_three (area : Rect) :
    splitH area 3 = [{ area with width := area.width / 3 },
      { area with x := area.x + area.width / 3, width := area.width / 3 },
      { area with
        x := area.x + 2 * (area.width / 3)
        width := area.width - area.width / 3 * 2 }] := by
  simp [splitH, List.range_succ]

theorem tiles_splitH_two (area : Rect) : Tiles area (splitH area 2) := by
  rw [splitH_two]
  exact (cut_columns area (Nat.div_le_self _ _)).tiles (tiles_self _) (tiles_self _)

/-- What tiles three columns tiles their area. -/
theorem tiles_three (area : Rect) {as bs cs : List Rect}
    (ha : Tiles { area with width := area.width / 3 } as)
    (hb : Tiles { area with x := area.x + area.width / 3, width := area.width / 3 } bs)
    (hc : Tiles { area with
      x := area.x + 2 * (area.width / 3)
      width := area.width - area.width / 3 * 2 } cs) : Tiles area (as ++ (bs ++ cs)) := by
  have first := cut_columns area (w := area.width / 3) (Nat.div_le_self _ _)
  have second := cut_columns
    { area with x := area.x + area.width / 3, width := area.width - area.width / 3 }
    (w := area.width / 3) (by dsimp only; omega)
  refine first.tiles ha (second.tiles hb ?_)
  dsimp only
  rwa [show area.x + area.width / 3 + area.width / 3 = area.x + 2 * (area.width / 3) by omega,
    show area.width - area.width / 3 - area.width / 3 = area.width - area.width / 3 * 2 by omega]

@[simp] theorem rects_append (as bs : Slots) : rects (as ++ bs) = rects as ++ rects bs :=
  List.map_append

@[simp] theorem rects_cons (p : Panel) (slot : Slot) (slots : Slots) :
    rects ((p, slot) :: slots) = slot.rect :: rects slots := rfl

/-- Boxes side by side. -/
theorem rects_zip (panels : List Panel) (rs : List Rect) (slot : Rect → Slot)
    (own : ∀ r, (slot r).rect = r) (length : panels.length = rs.length) :
    rects (panels.zip (rs.map slot)) = rs := by
  unfold rects
  have second : (panels.zip (rs.map slot)).map (fun p => p.2.rect) =
      ((panels.zip (rs.map slot)).map Prod.snd).map Slot.rect := by rw [List.map_map]; rfl
  rw [second, List.map_snd_zip (by simp [length]), List.map_map]
  exact (List.map_congr_left fun r _ => own r).trans (List.map_id' rs)

theorem tiles_halves (p q : Panel) (area : Rect) :
    Tiles area (rects ([p, q].zip ((splitH area 2).map Slot.boxed))) := by
  rw [rects_zip _ _ _ (fun _ => rfl) (by simp [splitH])]
  exact tiles_splitH_two area

/-! ## The grid -/

theorem tiles_gridPlan (t : Content) {body : Rect} (tall : 24 ≤ body.height) :
    Tiles body (rects (gridPlan t body)) := by
  unfold gridPlan
  dsimp only
  generalize hs : max (min (3 + min (max t.alerts 1) 4) (body.height / 5)) 3 = strip
  have strip_le : strip ≤ body.height - 17 := by omega
  generalize hl : min (max ((body.height - strip) * 3 / 10) 5) 10 = low
  generalize ht : min (max ((body.height - strip - low) / 2) 8) 15 = top
  have top_le : top + low ≤ body.height - strip := by omega
  rw [rects_append, rects_append, rects_append, List.append_assoc, List.append_assoc]
  refine (cut_rows body (h := top) (by omega)).tiles (tiles_halves _ _ _) ?_
  refine (cut_rows _ (h := body.height - strip - low - top) (by dsimp only; omega)).tiles
    (tiles_halves _ _ _) ?_
  dsimp only
  refine (cut_rows _ (h := low) (by dsimp only; omega)).tiles (tiles_halves _ _ _) ?_
  dsimp only
  rw [show body.y + top + (body.height - strip - low - top) + low = body.y + (body.height - strip) by
      omega,
    show body.height - top - (body.height - strip - low - top) - low = strip by omega]
  exact tiles_self _

/-! ## The columns -/

theorem tiles_bottomPlan {bottom : Rect} (h : 1 ≤ bottom.height) :
    Tiles bottom (rects (bottomPlan bottom)) := by
  unfold bottomPlan
  split
  case isTrue two =>
    have cut := cut_rows bottom (h := 1) h
    rw [two] at cut
    exact cut.tiles (tiles_self _) (tiles_self _)
  case isFalse =>
    rw [rects_zip _ _ _ (fun r => by split <;> rfl) (by simp [splitH])]
    exact tiles_splitH_two bottom

/-- A column of two areas is filled where the second one has room as a box. -/
theorem tiles_column (t : Content) (area : Rect) {p q : Panel} (distinct : p ≠ q)
    (few : ∀ iw, (rowsWanted t q iw).1 ≤ 2) (stretch : List (Panel × ℕ)) (tall : 5 ≤ area.height) :
    Tiles area (rects (stack t area [p, q] stretch)) := by
  have pair : [p, q].Nodup := by simpa using distinct
  have handed := handed_heights t area.height (area.width - 2) pair stretch
  have tiles := tiles_stack t area pair stretch
  have none : (heights t area.height (area.width - 2) [p, q] stretch).1 = 0 := by
    by_contra left
    have full := handed.filled (Nat.pos_of_ne_zero left) q (by simp)
    have rows := few (area.width - 2)
    simp only [List.length_cons, List.length_nil] at full
    omega
  rwa [none] at tiles

theorem bottomHeight_le (t : Content) {body : Rect} (tall : 12 ≤ body.height) :
    1 ≤ bottomHeight t body ∧ bottomHeight t body + 10 ≤ body.height := by
  unfold bottomHeight
  dsimp only
  split
  · omega
  · split <;> omega

theorem tiles_columnsPlan (t : Content) {body : Rect} (tall : 12 ≤ body.height) :
    Tiles body (rects (columnsPlan t body)) := by
  unfold columnsPlan
  have low := bottomHeight_le t tall
  dsimp only
  generalize bottomHeight t body = bottom at low ⊢
  rw [splitH_three]
  dsimp only
  have upper := tiles_three { body with height := body.height - bottom }
    (tiles_self _)
    (tiles_column t { body with
      x := body.x + body.width / 3
      width := body.width / 3
      height := body.height - bottom } (p := .gpus) (q := .advice) (by simp) (by simp [rowsWanted])
      [(.gpus, 65535)] (by dsimp only; omega))
    (tiles_column t { body with
      x := body.x + 2 * (body.width / 3)
      width := body.width - body.width / 3 * 2
      height := body.height - bottom } (p := .lanes) (q := .users) (by simp) (by simp [rowsWanted])
      [(.lanes, 65535)] (by dsimp only; omega))
  have lower : Tiles { body with
      y := body.y + (body.height - bottom)
      height := body.height - (body.height - bottom) }
      (rects (bottomPlan { body with y := body.y + body.height - bottom, height := bottom })) := by
    rw [show body.y + (body.height - bottom) = body.y + body.height - bottom by omega,
      show body.height - (body.height - bottom) = bottom by omega]
    exact tiles_bottomPlan low.1
  have both := (cut_rows body (h := body.height - bottom) (Nat.sub_le _ _)).tiles upper lower
  simpa only [rects_append, rects_cons, Slot.rect_boxed, List.cons_append, List.nil_append,
    List.append_assoc] using both

/-! ## The stack -/

theorem tiles_stacked (t : Content) {body : Rect} (tall : 12 ≤ body.height)
    (stretch : List (Panel × ℕ)) : Tiles body (rects (stack t body allPanels stretch)) := by
  have distinct : allPanels.Nodup := by decide
  have handed := handed_heights t body.height (body.width - 2) distinct stretch
  have tiles := tiles_stack t body distinct stretch
  have none : (heights t body.height (body.width - 2) allPanels stretch).1 = 0 := by
    by_contra left
    have full := handed.filled (Nat.pos_of_ne_zero left) .serve (by simp [allPanels])
    simp only [allPanels, List.length_cons, List.length_nil, rowsWanted] at full
    omega
  rwa [none] at tiles

/-! ## The row of two boxes -/

theorem smallRest_nodup (height : ℕ) : (smallRest height).Nodup := by
  unfold smallRest
  dsimp only
  split <;> decide

/-- With as few rows as these under the two boxes no area there is a box. -/
theorem full_small (t : Content) {height : ℕ} (rows iw : ℕ)
    (few : rows < (smallRest height).length + 2) : Full t rows iw (smallRest height) := by
  intro p hp
  have one : 1 ≤ (rowsWanted t p iw).1 := by
    have other : p ≠ .gpus := by
      rintro rfl
      unfold smallRest at hp
      dsimp only at hp
      split at hp <;> simp at hp
    cases p with
    | gpus => exact absurd rfl other
    | lanes =>
        unfold rowsWanted
        dsimp only
        split
        · exact Nat.le_refl 1
        · split <;> simp
    | _ => simp [rowsWanted]
  omega

theorem length_smallRest (height : ℕ) :
    (smallRest height).length = if height < 10 then 4 else 5 := by
  unfold smallRest
  dsimp only
  split <;> simp_all

/-- The rows under the two boxes: too few for a row each at the least height, then one for each
area, one more at one height, and from there on enough for a box. -/
theorem rows_small {height : ℕ} (tall : 7 ≤ height) :
    (height = 7 ∧ height - rowHeight height = 3) ∨
    (7 < height ∧ height < 14 ∧ height - rowHeight height = (smallRest height).length) ∨
    (height = 14 ∧ height - rowHeight height = (smallRest height).length + 1) ∨
    14 < height ∧ (smallRest height).length + 2 ≤ height - rowHeight height := by
  unfold rowHeight
  dsimp only
  rw [length_smallRest]
  split <;> split <;> omega

/-- The rows that are left under the two boxes. -/
theorem left_small (t : Content) {height : ℕ} (iw : ℕ) (stretch : List (Panel × ℕ))
    (tall : 7 ≤ height) :
    (heights t (height - rowHeight height) iw (smallRest height) stretch).1 =
      if height = 14 then 1 else 0 := by
  have handed := handed_heights t (height - rowHeight height) iw (smallRest_nodup height) stretch
  have full : height - rowHeight height < (smallRest height).length + 2 →
      (heights t (height - rowHeight height) iw (smallRest height) stretch).1 =
        height - rowHeight height - (smallRest height).length := by
    intro few
    rw [handed.full (full_small t _ iw few)]
  have length : 4 ≤ (smallRest height).length := by
    rw [length_smallRest]
    split <;> omega
  obtain ⟨seven, rows⟩ | ⟨-, low, rows⟩ | ⟨there, rows⟩ | ⟨high, rows⟩ := rows_small tall
  · rw [full (by omega), if_neg (by omega)]
    omega
  · rw [full (by omega), if_neg (by omega)]
    omega
  · rw [full (by omega), if_pos there]
    omega
  · rw [if_neg (by omega)]
    by_contra left
    have none := handed.filled (Nat.pos_of_ne_zero left) .advice (by
      unfold smallRest
      dsimp only
      split <;> simp)
    simp only [rowsWanted] at none
    omega

theorem tiles_smallPlan (t : Content) {body : Rect} (tall : 7 ≤ body.height) :
    Tiles { body with height := body.height - if body.height = 14 then 1 else 0 }
      (rects (smallPlan t body)) := by
  unfold smallPlan
  dsimp only
  rw [splitH_two]
  dsimp only
  have high : rowHeight body.height + 3 ≤ body.height := by
    have length := length_smallRest body.height
    have rows := rows_small tall
    split at length <;> omega
  generalize hk : taken t.gpus (body.width / 2) (body.width - body.width / 2) = take
  have take_le : take ≤ body.width / 2 := by
    unfold taken at hk
    dsimp only at hk
    split at hk <;> omega
  have under := tiles_stack t { body with
      y := body.y + rowHeight body.height
      height := body.height - rowHeight body.height } (smallRest_nodup body.height) [(.lanes, 4)]
  dsimp only at under
  rw [left_small t _ _ tall] at under
  generalize hl : (if body.height = 14 then 1 else 0) = left at under ⊢
  have left_le : left ≤ 1 := by
    rw [← hl]
    split <;> omega
  have upper := (cut_columns { body with height := rowHeight body.height }
    (w := body.width / 2 - take) (by dsimp only; omega)).tiles (tiles_self _) (tiles_self _)
  rw [show body.height - rowHeight body.height - left =
    body.height - left - rowHeight body.height by omega] at under
  have both := (cut_rows { body with height := body.height - left }
    (h := rowHeight body.height) (by dsimp only; omega)).tiles upper under
  dsimp only at both
  rw [show body.x + (body.width / 2 - take) = body.x + body.width / 2 - take by omega,
    show body.width - (body.width / 2 - take) = body.width - body.width / 2 + take by omega] at both
  exact both

/-! ## The card -/

/-- Bars one under the other. -/
theorem tiles_bars (body : Rect) (h n : ℕ) :
    Tiles { body with y := body.y + h, height := n } ((List.range n).map (barAt body h)) := by
  induction n with
  | zero => exact tiles_nil (.inr rfl)
  | succ n ih =>
      rw [List.range_succ, List.map_append, List.map_singleton]
      have last := (cut_rows { body with y := body.y + h, height := n + 1 } (h := n)
        (Nat.le_succ n)).tiles ih (tiles_self _)
      dsimp only at last
      rwa [Nat.add_sub_cancel_left] at last

theorem rects_numbered (body : Rect) (h : ℕ) (panels : List Panel) :
    rects (panels.zipIdx.map fun p => (p.1, Slot.bar (barAt body h p.2))) =
      (List.range panels.length).map (barAt body h) := by
  rw [List.range_eq_range', ← List.zipIdx_map_snd 0 panels, rects, List.map_map, List.map_map]
  rfl

/-- The bars of a card: its rows, each once. -/
theorem rects_bars (body : Rect) (h : ℕ) {rows : ℕ} (few : rows ≤ minimizedBars.length) :
    rects ((((minimizedBars.take (ownBars rows)).zipIdx.map fun p =>
        (p.1, Slot.bar (barAt body h p.2))) ++
      if ownBars rows < rows then
        (minimizedBars[ownBars rows]?).toList.map fun p =>
          (p, Slot.more (barAt body h (ownBars rows)) (ownBars rows))
      else [])) = (List.range rows).map (barAt body h) := by
  have six : minimizedBars.length = 6 := rfl
  have own : ownBars rows = rows ∨ ownBars rows + 1 = rows := by
    unfold ownBars
    split <;> omega
  rw [rects_append, rects_numbered, List.length_take, Nat.min_eq_left (by omega)]
  cases own with
  | inl each =>
      rw [each, if_neg (Nat.lt_irrefl _)]
      exact List.append_nil _
  | inr last =>
      obtain ⟨p, hp⟩ : ∃ p, minimizedBars[ownBars rows]? = some p :=
        ⟨_, List.getElem?_eq_getElem (by omega)⟩
      have range : List.range rows = List.range (ownBars rows) ++ [ownBars rows] :=
        (congrArg List.range last).symm.trans List.range_succ
      rw [if_pos (by omega), hp, range, List.map_append]
      rfl

theorem tiles_focusPlan (body : Rect) :
    Tiles { body with height := body.height - if body.height = 2 then 1 else 0 }
      (rects (focusPlan body)) := by
  unfold focusPlan
  by_cases low : body.height < 3
  · rw [if_pos low]
    have rows : min 1 body.height = body.height - if body.height = 2 then 1 else 0 := by
      split <;> omega
    rw [← rows]
    exact tiles_self _
  · rw [if_neg low]
    have six : minimizedBars.length = 6 := rfl
    have card : cardHeight body.height ≤ body.height ∧
        body.height - cardHeight body.height ≤ minimizedBars.length := by
      unfold cardHeight
      split
      · omega
      · split <;> omega
    have bars := tiles_bars body (cardHeight body.height) (body.height - cardHeight body.height)
    rw [← rects_bars body (cardHeight body.height) card.2] at bars
    have both := (cut_rows body card.1).tiles (tiles_self _) bars
    rw [if_neg (by omega)]
    exact both

/-! ## The plan -/

/-- What is known of the height where a layout is used. -/
theorem layout_tall (shape : Shape) (body : Rect) :
    layout shape body = .grid ∧ 24 ≤ body.height ∨ layout shape body = .columns ∧ 12 ≤ body.height ∨
      layout shape body = .stacked ∧ 12 ≤ body.height ∨
      layout shape body = .small ∧ 7 ≤ body.height ∨ layout shape body = .card := by
  unfold layout
  split
  case isTrue h => exact .inl ⟨rfl, h.2.1⟩
  split
  case isTrue h => exact .inr (.inl ⟨rfl, h.2.1⟩)
  split
  case isTrue h => exact .inr (.inr (.inl ⟨rfl, h.2⟩))
  split
  case isTrue => exact .inr (.inr (.inr (.inr rfl)))
  split
  case isTrue h => exact .inr (.inr (.inr (.inl ⟨rfl, h.2⟩)))
  case isFalse => exact .inr (.inr (.inr (.inr rfl)))

/-- The areas of the overview tile the screen, but for the row that is left blank. -/
theorem plan_tiles (t : Content) (shape : Shape) (body : Rect) :
    Tiles { body with height := body.height - blank shape body } (rects (plan t shape body)) := by
  have tall := layout_tall shape body
  unfold plan blank
  rcases tall with ⟨kind, tall⟩ | ⟨kind, tall⟩ | ⟨kind, tall⟩ | ⟨kind, tall⟩ | kind <;> rw [kind]
  · exact tiles_gridPlan t tall
  · exact tiles_columnsPlan t tall
  · exact tiles_stacked t tall _
  · exact tiles_smallPlan t tall
  · exact tiles_focusPlan body

/-! ## Frames -/

/-- The strips tile what is taken from the top, and enough is left. -/
theorem tiles_takeStrips (n : ℕ) (body : Rect) {rest : List Rect}
    (h : Tiles (takeStrips n body).2 rest) : Tiles body ((takeStrips n body).1 ++ rest) := by
  induction n generalizing body with
  | zero => exact h
  | succ n ih =>
      unfold takeStrips at h ⊢
      split
      case isTrue low =>
        rw [if_pos low] at h
        exact h
      case isFalse high =>
        rw [if_neg high] at h
        dsimp only
        have top := tiles_self { body with height := 1 }
        have whole := (cut_rows body (h := 1) (by omega)).tiles top (ih _ h)
        exact whole

theorem takeStrips_tall (n : ℕ) {body : Rect} (tall : 2 ≤ body.height) :
    2 ≤ (takeStrips n body).2.height := by
  induction n generalizing body with
  | zero => exact tall
  | succ n ih =>
      unfold takeStrips
      split
      · exact tall
      · exact ih (by dsimp only; omega)

/-- The row of a frame that is left blank, if there is one. -/
def blankRow (l : Lines) (shape : Shape) (area : Rect) : List Rect :=
  let head := if shape = .focus then l.warned.toNat else 1
  let body := (takeStrips (strips l shape area.height)
    { area with y := area.y + head, height := area.height - head }).2
  let inner : Rect := { body with height := body.height - 1 }
  if area.height < 3 then []
  else [{ inner with
    y := inner.y + (inner.height - blank shape inner)
    height := blank shape inner }]

theorem blank_le (shape : Shape) (body : Rect) : blank shape body ≤ body.height := by
  unfold blank
  split <;> (try split) <;> omega

/-- The areas, the blank row and the foot tile what is left under the strips. -/
theorem tiles_body (t : Content) (shape : Shape) {body : Rect} (tall : 2 ≤ body.height) :
    let inner : Rect := { body with height := body.height - 1 }
    Tiles body ({ body with y := body.y + body.height - 1, height := 1 } ::
      (rects (plan t shape inner) ++ [{ inner with
        y := inner.y + (inner.height - blank shape inner)
        height := blank shape inner }])) := by
  intro inner
  have le := blank_le shape inner
  have cut := cut_rows inner (h := inner.height - blank shape inner) (Nat.sub_le _ _)
  rw [show inner.height - (inner.height - blank shape inner) = blank shape inner by omega] at cut
  have upper := cut.tiles (plan_tiles t shape inner) (tiles_self _)
  have foot := cut_rows body (h := body.height - 1) (Nat.sub_le _ _)
  rw [show body.y + (body.height - 1) = body.y + body.height - 1 by omega,
    show body.height - (body.height - 1) = 1 by omega] at foot
  exact (foot.tiles upper (tiles_self _)).perm List.perm_append_comm

@[simp] theorem shown_nil : shown [] = [] := rfl

@[simp] theorem shown_append (as bs : Slots) : shown (as ++ bs) = shown as ++ shown bs :=
  List.flatMap_append

@[simp] theorem shown_boxed (p : Panel) (r : Rect) (slots : Slots) :
    shown ((p, .boxed r) :: slots) = p :: shown slots := rfl

@[simp] theorem shown_bar (p : Panel) (r : Rect) (slots : Slots) :
    shown ((p, .bar r) :: slots) = p :: shown slots := rfl

theorem shown_place (area : Rect) (y : ℕ) (parts : List Part) :
    shown (place area y parts) = (place area y parts).map Prod.fst := by
  induction parts generalizing y with
  | nil => rfl
  | cons p ps ih =>
      unfold place
      split
      · rfl
      · dsimp only
        rw [List.map_cons, ← ih]
        split <;> rfl

theorem shown_stack (t : Content) (area : Rect) {areas : List Panel} (distinct : areas.Nodup)
    (stretch : List (Panel × ℕ)) (fits : areas.length ≤ area.height) :
    shown (stack t area areas stretch) = areas :=
  (shown_place _ _ _).trans (panels_stack t area distinct stretch fits)

theorem shown_halves (p q : Panel) (area : Rect) :
    shown ([p, q].zip ((splitH area 2).map Slot.boxed)) = [p, q] := by
  rw [splitH_two]
  rfl

theorem shown_gridPlan (t : Content) (body : Rect) : shown (gridPlan t body) = allPanels := by
  unfold gridPlan
  simp only [shown_append, shown_halves, shown_boxed, shown_nil]
  rfl

theorem shown_bottomPlan (bottom : Rect) : shown (bottomPlan bottom) = [.incidents, .alerts] := by
  unfold bottomPlan
  split
  · rfl
  · rw [splitH_two]
    split <;> rfl

theorem shown_columnsPlan (t : Content) {body : Rect} (tall : 12 ≤ body.height) :
    (shown (columnsPlan t body)).Perm allPanels := by
  have low := bottomHeight_le t tall
  unfold columnsPlan
  dsimp only
  rw [splitH_three]
  dsimp only
  rw [shown_append, shown_append, shown_boxed,
    shown_stack t _ (by decide) _ (by simp only [List.length_cons, List.length_nil]; omega),
    shown_stack t _ (by decide) _ (by simp only [List.length_cons, List.length_nil]; omega),
    shown_bottomPlan]
  decide

theorem shown_smallPlan (t : Content) {body : Rect} (tall : 7 ≤ body.height) :
    shown (smallPlan t body) = .serve :: .gpus ::
      (smallRest body.height).take (if body.height = 7 then 3 else 5) := by
  unfold smallPlan
  dsimp only
  rw [splitH_two]
  dsimp only
  rw [shown_boxed, shown_boxed]
  have length := length_smallRest body.height
  have rows := rows_small tall
  by_cases seven : body.height = 7
  · rw [if_pos seven]
    unfold stack
    rw [shown_place]
    have bars := panels_stack_full t { body with
        y := body.y + rowHeight body.height
        height := body.height - rowHeight body.height } (smallRest_nodup body.height) [(.lanes, 4)]
      (full_small t _ _ (by dsimp only; split at length <;> omega))
    dsimp only at bars
    rw [show body.height - rowHeight body.height = 3 by omega] at bars ⊢
    exact congrArg (fun rest => Panel.serve :: Panel.gpus :: rest) bars
  · rw [if_neg seven, shown_stack t _ (smallRest_nodup _) _ (by
      dsimp only
      split at length <;> omega),
      List.take_of_length_le (by split at length <;> omega)]

/-- The bar for the rest stands for all areas from its own on. -/
theorem shown_bars (body : Rect) (h rows : ℕ) :
    shown (((minimizedBars.take (ownBars rows)).zipIdx.map fun p =>
        (p.1, Slot.bar (barAt body h p.2))) ++
      if ownBars rows < rows then
        (minimizedBars[ownBars rows]?).toList.map fun p =>
          (p, Slot.more (barAt body h (ownBars rows)) (ownBars rows))
      else []) =
      if ownBars rows < rows then minimizedBars else minimizedBars.take (ownBars rows) := by
  have plain : ∀ panels : List Panel, shown (panels.zipIdx.map fun p =>
      (p.1, Slot.bar (barAt body h p.2))) = panels := by
    intro panels
    rw [shown, List.flatMap_map]
    exact List.map_eq_flatMap.symm.trans (List.zipIdx_map_fst 0 panels)
  rw [shown_append, plain]
  split
  case isTrue =>
    cases found : minimizedBars[ownBars rows]? with
    | none =>
        rw [List.take_of_length_le (List.getElem?_eq_none_iff.mp found)]
        exact List.append_nil _
    | some p =>
        rw [Option.toList_some, List.map_singleton, shown, List.flatMap_singleton]
        exact List.take_append_drop _ _
  case isFalse => rw [shown_nil, List.append_nil]

theorem rows_card (height : ℕ) :
    height - cardHeight height = if height < 6 then 0 else min (height - 5) 6 := by
  have six : minimizedBars.length = 6 := rfl
  unfold cardHeight
  split
  · rw [if_neg (by omega)]
    omega
  · split
    · rw [if_neg (by omega)]
      omega
    · rw [if_pos (by omega)]
      omega

theorem shown_focusPlan (body : Rect) :
    shown (focusPlan body) = .serve ::
      if body.height < 6 then [] else if body.height = 10 then minimizedBars.take 5
      else minimizedBars := by
  unfold focusPlan
  by_cases low : body.height < 3
  · rw [if_pos low, if_pos (by omega)]
    rfl
  · rw [if_neg low]
    dsimp only
    rw [List.cons_append, shown_boxed, shown_bars]
    congr 1
    have six : minimizedBars.length = 6 := rfl
    by_cases none : body.height < 6
    · rw [if_pos none, rows_card, if_pos none]
      rfl
    · rw [if_neg none, rows_card, if_neg none]
      by_cases five : body.height = 10
      · rw [if_pos five, five]
        rfl
      · rw [if_neg five]
        split
        case isTrue => rfl
        case isFalse all =>
          refine List.take_of_length_le ?_
          unfold ownBars at all ⊢
          split at all
          case isTrue => rw [if_pos ‹_›]; omega
          case isFalse => omega

/-- Every area is on screen once, but for the ones that have no place at this height. -/
theorem plan_shows (t : Content) (shape : Shape) (body : Rect) :
    (shown (plan t shape body)).Perm (allPanels.filter (· ∉ unseen shape body)) := by
  have tall := layout_tall shape body
  unfold plan unseen
  rcases tall with ⟨kind, tall⟩ | ⟨kind, tall⟩ | ⟨kind, tall⟩ | ⟨kind, tall⟩ | kind <;>
    rw [kind] <;> dsimp only
  · rw [shown_gridPlan]
    simp
  · exact (shown_columnsPlan t tall).trans (by simp)
  · rw [shown_stack t body (by decide) _ (Nat.le_trans (by decide) tall)]
    simp
  · rw [shown_smallPlan t tall]
    unfold smallRest
    by_cases seven : body.height = 7
    · rw [if_pos seven, if_pos seven, seven]
      decide
    · rw [if_neg seven, if_neg seven]
      dsimp only [List.length_cons, List.length_nil]
      split
      · decide
      · decide
  · rw [shown_focusPlan]
    split
    · decide
    · split <;> decide

end Lss.Analysis.OverviewLayout
