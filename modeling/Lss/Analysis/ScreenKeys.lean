import Lss.Model.Screen

/-!
# What a key can do

A key switches to another server, starts the benchmark that is offered, or leaves alone all that
belongs to the server on screen. The view changes to a page only where that page is not hidden, and
Tab and its reverse walk around the overview and the pages that are not.
-/

set_option autoImplicit false

namespace Lss.Model.Screen

/-- What belongs to the server on screen. -/
structure ServerPart where
  url : String
  status : Option Status
  error : Option String
  lastOk : Option ℤ
  pageData : PageData
  fleet : List FleetEntry
  serverIdx : ℕ
  benchLocal : Bool
  benchCommand : String
  action : Option Action

namespace App

/-- What an app has of the server on screen. -/
def server (a : App) : ServerPart :=
  { url := a.url
    status := a.status
    error := a.error
    lastOk := a.lastOk
    pageData := a.pageData
    fleet := a.fleet
    serverIdx := a.serverIdx
    benchLocal := a.benchLocal
    benchCommand := a.benchCommand
    action := a.action }

/-- Neither the help nor the prompt of a benchmark takes the keys. -/
def Calm (a : App) : Prop := a.showHelp = false ∧ a.benchPrompt = false

/-- The screen walks from one app to another: what belongs to the server stays, no hidden page is
opened, and neither the help nor the prompt is. -/
structure Walks (a b : App) : Prop where
  server : b.server = a.server
  opens : ∀ p, b.view = .page p → a.view = .page p ∨ p ∈ a.ring
  help : b.showHelp = true → a.showHelp = true
  prompt : b.benchPrompt = true → a.benchPrompt = true

/-- What a key can do. -/
inductive Effect (a : App) (k : Key) : App → Prop where
  | switched (calm : a.Calm) (d : ℤ) : Effect a k (a.switchServer d)
  | started (prompt : a.benchPrompt = true) (confirmed : confirms k = true)
      (here : a.benchLocal = true) :
      Effect a k { a with action := some .startBench, benchPrompt := false }
  | offered (calm : a.Calm) (key : k = .char 'b' ∨ k = .char 'B') (view : a.view = .page .model) :
      Effect a k { a with benchPrompt := true, benchMessage := none }
  | helped (calm : a.Calm) : Effect a k { a with showHelp := true, helpScroll := 0 }
  | walked {b : App} (h : Walks a b) : Effect a k b

/-! ## Walking -/

theorem Walks.calm {a b : App} (h : Walks a b) (calm : a.Calm) : b.Calm :=
  ⟨Bool.eq_false_iff.mpr fun on => by simpa [calm.1] using h.help on,
    Bool.eq_false_iff.mpr fun on => by simpa [calm.2] using h.prompt on⟩

/-- Where the view stays, only the server, the help and the prompt are to be looked at. -/
theorem walks_of_view {a b : App} (server : b.server = a.server) (view : b.view = a.view)
    (help : b.showHelp = true → a.showHelp = true)
    (prompt : b.benchPrompt = true → a.benchPrompt = true) : Walks a b where
  server := server
  opens := fun _ hp => .inl (view ▸ hp)
  help := help
  prompt := prompt

theorem walks_refl (a : App) : Walks a a := walks_of_view rfl rfl id id

/-- A view that is not a page opens none. -/
theorem walks_elsewhere {a b : App} (server : b.server = a.server) (view : ∀ p, b.view ≠ .page p)
    (help : b.showHelp = a.showHelp) (prompt : b.benchPrompt = a.benchPrompt) : Walks a b where
  server := server
  opens := fun p hp => absurd hp (view p)
  help := fun on => help ▸ on
  prompt := fun on => prompt ▸ on

theorem walks_backToOverview (a : App) : Walks a a.backToOverview :=
  walks_elsewhere rfl (by simp [backToOverview]) rfl rfl

theorem walks_openPage (a : App) (p : PageId) : Walks a (a.openPage p) := by
  unfold openPage
  split
  case isTrue shown =>
    split
    · exact walks_refl a
    · exact {
        server := rfl
        opens := by
          rintro q ⟨⟩
          exact .inr shown
        help := id
        prompt := by rintro ⟨⟩ }
  case isFalse => exact walks_refl a

theorem walks_openSome (a : App) (p : Option PageId) : Walks a (a.openSome p) := by
  cases p with
  | none => exact walks_refl a
  | some p => exact walks_openPage a p

/-- On to a page, or back to the overview where there is none. -/
theorem walks_elim (a : App) (p : Option PageId) :
    Walks a (p.elim a.backToOverview a.openPage) := by
  cases p with
  | none => exact walks_backToOverview a
  | some p => exact walks_openPage a p

theorem walks_openNextInRing (a : App) : Walks a a.openNextInRing := by
  unfold openNextInRing
  split
  · exact walks_openSome a _
  · split
    · exact walks_backToOverview a
    · exact walks_elim a _
  · exact walks_refl a

theorem walks_openPrevInRing (a : App) : Walks a a.openPrevInRing := by
  unfold openPrevInRing
  split
  · exact walks_openSome a _
  · split
    · exact walks_backToOverview a
    · exact walks_elim a _
  · exact walks_refl a

theorem walks_openWatch (a : App) : Walks a a.openWatch := by
  unfold openWatch
  split <;> exact walks_elsewhere rfl (by simp) rfl rfl

theorem walks_onHelpKey (a : App) (k : Key) : Walks a (a.onHelpKey k) := by
  unfold onHelpKey
  split
  case h_5 => exact walks_of_view rfl rfl id id
  all_goals exact walks_of_view rfl rfl (by simp) id

theorem walks_onDashKey (a : App) (k : Key) : Walks a (a.onDashKey k) := by
  unfold onDashKey
  split
  case h_3 => exact walks_openNextInRing a
  case h_4 => exact walks_openPrevInRing a
  case h_5 => exact walks_openSome a _
  all_goals exact walks_of_view rfl rfl id id

theorem walks_onGridKey (a : App) (k : Key) : Walks a (a.onGridKey k) := by
  cases k with
  | enter => exact walks_openPage a _
  | tab => exact walks_openNextInRing a
  | backTab => exact walks_openPrevInRing a
  | _ => exact walks_of_view rfl rfl id id

theorem walks_onCompareKey (a : App) (k : Key) : Walks a (a.onCompareKey k) := by
  cases k with
  | tab => exact walks_openNextInRing a
  | right => exact walks_openNextInRing a
  | backTab => exact walks_openPrevInRing a
  | left => exact walks_openPrevInRing a
  | _ => exact walks_of_view rfl rfl id id

theorem walks_onPageKey (a : App) (k : Key) : Walks a (a.onPageKey k) := by
  cases k with
  | tab => exact walks_openNextInRing a
  | right => exact walks_openNextInRing a
  | backTab => exact walks_openPrevInRing a
  | left => exact walks_openPrevInRing a
  | _ => exact walks_of_view rfl rfl id id

theorem walks_onViewKey (a : App) (k : Key) : Walks a (a.onViewKey k) := by
  unfold onViewKey
  split
  · split
    · exact walks_onDashKey a k
    · exact walks_onGridKey a k
  · exact walks_of_view rfl rfl id id
  · exact walks_of_view rfl rfl id id
  · split
    · exact walks_onCompareKey a k
    · exact walks_onPageKey a k

/-! ## Keys -/

theorem onChar_effect {a : App} (calm : a.Calm) (c : Char) : Effect a (.char c) (a.onChar c) := by
  unfold onChar
  split
  case h_1 => exact .helped calm
  case h_10 => exact .switched calm _
  case h_11 => exact .switched calm _
  case h_12 =>
    split
    · exact .walked (walks_elsewhere rfl (by simp) rfl rfl)
    · exact .walked (walks_refl a)
  case h_13 =>
    split
    · exact .walked (walks_elsewhere rfl (by simp) rfl rfl)
    · exact .walked (walks_refl a)
  case h_14 => exact .walked (walks_openWatch a)
  case h_15 => exact .walked (walks_openWatch a)
  case h_20 =>
    split
    case isTrue view => exact .offered calm (.inl rfl) view
    case isFalse => exact .walked (walks_refl a)
  case h_21 =>
    split
    case isTrue view => exact .offered calm (.inr rfl) view
    case isFalse => exact .walked (walks_refl a)
  case h_22 => exact .walked (walks_backToOverview a)
  case h_23 => exact .walked (walks_openPage a _)
  case h_24 => exact .walked (walks_openPage a _)
  case h_25 => exact .walked (walks_openSome a _)
  all_goals refine .walked ?_
  all_goals first
    | exact walks_of_view rfl rfl id id
    | (split <;> exact walks_of_view rfl rfl id id)

theorem onBenchKey_effect {a : App} (prompt : a.benchPrompt = true) (k : Key) :
    Effect a k (a.onBenchKey k) := by
  unfold onBenchKey
  split
  case isTrue start =>
    rw [Bool.and_eq_true] at start
    exact .started prompt start.1 start.2
  case isFalse =>
    split
    · exact .walked (walks_of_view rfl rfl id (by simp))
    · exact .walked (walks_refl a)

/-- Every key does one of the things that a key can do. -/
theorem onKey_effect (a : App) (k : Key) : Effect a k (a.onKey k) := by
  unfold onKey
  by_cases help : a.showHelp = true
  · rw [if_pos help]
    exact .walked (walks_onHelpKey a k)
  rw [if_neg help]
  by_cases prompt : a.benchPrompt = true
  · rw [if_pos prompt]
    exact onBenchKey_effect prompt k
  rw [if_neg prompt]
  have calm : a.Calm := ⟨Bool.eq_false_iff.mpr help, Bool.eq_false_iff.mpr prompt⟩
  cases k with
  | char c => exact onChar_effect calm c
  | esc =>
      dsimp only
      split
      · exact .walked (walks_of_view rfl rfl id id)
      · exact .walked (walks_backToOverview a)
  | enter =>
      dsimp only
      split
      · exact .walked (walks_backToOverview a)
      · exact .walked (walks_onViewKey a _)
  | _ => exact .walked (walks_onViewKey a _)

theorem view_switchServer (a : App) (d : ℤ) : (a.switchServer d).view = a.view := by
  unfold switchServer
  split <;> rfl

theorem prompt_switchServer (a : App) (d : ℤ) :
    (a.switchServer d).benchPrompt = a.benchPrompt := by
  unfold switchServer
  split <;> rfl

/-- No key opens a hidden page. -/
theorem opens_onKey {a : App} {k : Key} {p : PageId} (h : (a.onKey k).view = .page p) :
    a.view = .page p ∨ p ∈ a.ring := by
  have effect := onKey_effect a k
  generalize a.onKey k = b at effect h
  cases effect with
  | switched _ d => exact .inl (view_switchServer a d ▸ h)
  | started => exact .inl h
  | offered => exact .inl h
  | helped => exact .inl h
  | walked walk => exact walk.opens p h

/-! ## Around the ring -/

/-- What follows a view in the ring. -/
def nextView (ring : List PageId) : View → View
  | .overview => ring.head?.elim .overview .page
  | .page p =>
    if ring.getLast? = some p then .overview
    else (ring.find? fun q => p.number < q.number).elim .overview .page
  | v => v

/-- What a view follows in the ring. -/
def prevView (ring : List PageId) : View → View
  | .overview => ring.getLast?.elim .overview .page
  | .page p =>
    if ring.head? = some p then .overview
    else (ring.reverse.find? fun q => q.number < p.number).elim .overview .page
  | v => v

theorem view_openPage {a : App} {p : PageId} (h : p ∈ a.ring) : (a.openPage p).view = .page p := by
  unfold openPage
  rw [if_pos h]
  split
  case isTrue here => exact here
  case isFalse => rfl

theorem view_openSome {a : App} {o : Option PageId} (h : ∀ p ∈ o, p ∈ a.ring) :
    (a.openSome o).view = o.elim a.view .page := by
  cases o with
  | none => rfl
  | some p => exact view_openPage (h p rfl)

theorem view_elim {a : App} {o : Option PageId} (h : ∀ p ∈ o, p ∈ a.ring) :
    (o.elim a.backToOverview a.openPage).view = o.elim .overview .page := by
  cases o with
  | none => rfl
  | some p => exact view_openPage (h p rfl)

theorem view_openNextInRing (a : App) : a.openNextInRing.view = nextView a.ring a.view := by
  unfold openNextInRing
  split
  case h_1 here =>
    rw [view_openSome fun p hp => List.mem_of_head? hp, here]
    rfl
  case h_2 p here =>
    rw [here, nextView]
    split
    · rfl
    · exact view_elim fun q hq => List.mem_of_find?_eq_some hq
  case h_3 => cases here : a.view <;> simp_all [nextView]

theorem view_openPrevInRing (a : App) : a.openPrevInRing.view = prevView a.ring a.view := by
  unfold openPrevInRing
  split
  case h_1 here =>
    rw [view_openSome fun p hp => List.mem_of_getLast? hp, here]
    rfl
  case h_2 p here =>
    rw [here, prevView]
    split
    · rfl
    · exact view_elim fun q hq => List.mem_reverse.mp (List.mem_of_find?_eq_some hq)
  case h_3 => cases here : a.view <;> simp_all [prevView]

/-- The key that goes on around the ring, or back. -/
def ringKey (back : Bool) : Key := if back then .backTab else .tab

/-- The tables are not in the ring. -/
theorem ring_elsewhere {a : App} (h : a.view = .fleet ∨ a.view = .watch) :
    a.openNextInRing = a ∧ a.openPrevInRing = a := by
  cases h with
  | inl here => simp only [openNextInRing, openPrevInRing, here, and_self]
  | inr here => simp only [openNextInRing, openPrevInRing, here, and_self]

theorem onKey_ringKey {a : App} (h : a.Calm) (back : Bool) :
    a.onKey (ringKey back) = if back then a.openPrevInRing else a.openNextInRing := by
  have there : a.onKey (ringKey back) = a.onViewKey (ringKey back) := by
    unfold onKey
    rw [if_neg (by simp [h.1]), if_neg (by simp [h.2])]
    cases back <;> rfl
  rw [there, onViewKey]
  split
  · cases back <;> split <;> rfl
  case h_2 here =>
    rw [(ring_elsewhere (.inl here)).1, (ring_elsewhere (.inl here)).2]
    cases back <;> rfl
  case h_3 here =>
    rw [(ring_elsewhere (.inr here)).1, (ring_elsewhere (.inr here)).2]
    cases back <;> rfl
  · cases back <;> split <;> rfl

/-- The overview and the pages that are not hidden, in the order of Tab. -/
def circle (gateAbsent : Bool) : List View :=
  .overview :: (PageId.visiblePages gateAbsent).map .page

/-- A number as a place of the ring, counted around it in both directions. -/
def place (gateAbsent : Bool) (z : ℤ) : ℕ := (z % ((circle gateAbsent).length : ℤ)).toNat

/-- The view at a place of the ring. -/
def standing (gateAbsent : Bool) (z : ℤ) : View :=
  ((circle gateAbsent)[place gateAbsent z]?).getD .overview

theorem place_lt (g : Bool) (z : ℤ) : place g z < (circle g).length := by
  have size : 0 < (circle g).length := by simp [circle]
  have below := Int.emod_lt_of_pos z (b := ((circle g).length : ℤ)) (by omega)
  have above := Int.emod_nonneg z (b := ((circle g).length : ℤ)) (by omega)
  unfold place
  omega

theorem place_succ (g : Bool) (z : ℤ) : place g (z + 1) = (place g z + 1) % (circle g).length := by
  have size : 0 < (circle g).length := by simp [circle]
  have above := Int.emod_nonneg z (b := ((circle g).length : ℤ)) (by omega)
  unfold place
  rw [← Int.toNat_natCast (_ % _)]
  congr 1
  push_cast
  rw [Int.toNat_of_nonneg above, Int.emod_add_emod]

/-- At each place of the ring, what follows is at the next one. -/
theorem circle_next (g : Bool) : ∀ i < (circle g).length,
    nextView (PageId.visiblePages g) (((circle g)[i]?).getD .overview) =
        ((circle g)[(i + 1) % (circle g).length]?).getD .overview ∧
      prevView (PageId.visiblePages g) (((circle g)[(i + 1) % (circle g).length]?).getD .overview) =
        ((circle g)[i]?).getD .overview := by
  cases g <;> decide

theorem nextView_standing (g : Bool) (z : ℤ) :
    nextView (PageId.visiblePages g) (standing g z) = standing g (z + 1) := by
  rw [standing, standing, place_succ]
  exact (circle_next g _ (place_lt g z)).1

theorem prevView_standing (g : Bool) (z : ℤ) :
    prevView (PageId.visiblePages g) (standing g z) = standing g (z - 1) := by
  have back := (circle_next g _ (place_lt g (z - 1))).2
  rwa [← place_succ, Int.sub_add_cancel] at back

/-- How far the keys lead around the ring. -/
def around (keys : List Bool) : ℤ := (keys.count false : ℤ) - keys.count true

theorem gateAbsent_congr {a b : App} (h : b.server = a.server) : b.gateAbsent = a.gateAbsent :=
  congrArg (fun s : ServerPart => s.status.any Status.gateAbsent) h

theorem around_cons (back : Bool) (keys : List Bool) (z : ℤ) :
    z + around (back :: keys) = (if back then z - 1 else z + 1) + around keys := by
  cases back <;> simp only [around, List.count_cons] <;> simp <;> omega

theorem walks_ring (a : App) (back : Bool) :
    Walks a (if back then a.openPrevInRing else a.openNextInRing) := by
  cases back with
  | false => exact walks_openNextInRing a
  | true => exact walks_openPrevInRing a

theorem view_ring {a : App} {z : ℤ} (h : a.view = standing a.gateAbsent z) (back : Bool) :
    (if back then a.openPrevInRing else a.openNextInRing).view =
      standing a.gateAbsent (if back then z - 1 else z + 1) := by
  cases back with
  | false => exact (view_openNextInRing a).trans (h ▸ nextView_standing _ z)
  | true => exact (view_openPrevInRing a).trans (h ▸ prevView_standing _ z)

/-- Tab and its reverse lead around the overview and all pages that are not hidden, and the one
takes back what the other does. -/
theorem tabs_lead_around (a : App) (keys : List Bool) (z : ℤ) (calm : a.Calm)
    (here : a.view = standing a.gateAbsent z) :
    let b := (keys.map ringKey).foldl onKey a
    b.view = standing a.gateAbsent (z + around keys) ∧ b.server = a.server ∧ b.Calm := by
  induction keys generalizing a z with
  | nil => simpa [around] using ⟨here, calm⟩
  | cons back keys ih =>
      have walk := walks_ring a back
      have gate := gateAbsent_congr walk.server
      have there := view_ring here back
      rw [← gate] at there
      obtain ⟨view, server, still⟩ := ih _ _ (walk.calm calm) there
      rw [List.map_cons, List.foldl_cons, onKey_ringKey calm]
      refine ⟨?_, server.trans walk.server, still⟩
      rw [view, gate, around_cons]

/-- After the last page Tab leads to the overview and then to the first page. -/
theorem tabs_from_advice :
    let a : App := { view := .page .advice }
    a.Calm ∧ a.view = standing a.gateAbsent (-1) ∧
      (([false, false].map ringKey).foldl onKey a).view = standing a.gateAbsent (-1 + 2) :=
  ⟨⟨rfl, rfl⟩, by decide,
    (tabs_lead_around { view := .page .advice } [false, false] (-1) ⟨rfl, rfl⟩ (by decide)).1⟩

end App

end Lss.Model.Screen
