import Mathlib.Data.Int.Notation
import Mathlib.Data.List.MinMax
import Mathlib.Data.Nat.Notation
import Mathlib.Logic.Function.Basic
import Lss.Library.Rectangles
import Lss.Model.Query
import Lss.Model.SetupFiles
import Lss.Model.SetupWizard

/-!
# The live screen

What the screen remembers between two keys, and what each key does to it. Drawing is left out but
for what it writes down for the next key: which rows a page has, and where its areas stand.

One thread asks the collector that is on screen, one more for each server of a fleet asks that
server, and what they were told waits in a channel until the screen takes it. What the screen
remembers between two runs is in a file. Any of them may go on at any time.
-/

set_option autoImplicit false

namespace Lss.Model.Screen

open Lss.Library.Rectangles Lss.Model.Setup

/-! ## Pages -/

/-- SOURCE: lss/src/data.rs:12-24 -/
inductive PageId where
  | latency
  | load
  | gpus
  | users
  | tokens
  | model
  | gateway
  | alerts
  | incidents
  | advice
deriving DecidableEq

namespace PageId

/-- In the order of their keys.
SOURCE: lss/src/data.rs:32 -/
def all : List PageId :=
  [latency, load, gpus, users, tokens, model, gateway, alerts, incidents, advice]

/-- The place in the ring, from one on.
SOURCE: lss/src/data.rs:36-38 -/
def number (p : PageId) : ℕ := all.idxOf p + 1

/-- The page that a key opens.
SOURCE: lss/src/data.rs:52-58 -/
def fromDigit (c : Char) : Option PageId :=
  if c = 'a' then some advice
  else if '1' ≤ c ∧ c ≤ '9' then all[c.toNat - '1'.toNat]?
  else none

/-- Without a gateway its two pages are hidden.
SOURCE: lss/src/data.rs:67-73 -/
def visiblePages (gateAbsent : Bool) : List PageId :=
  all.filter fun p => !gateAbsent || !(p = users || p = gateway)

end PageId

/-- The layouts of the overview.
SOURCE: lss/src/ui/mod.rs:37-53 -/
inductive Shape where
  | halfH
  | halfV
  | thirdH
  | thirdV
  | small
  | focus
deriving DecidableEq

namespace Shape

/-- SOURCE: lss/src/ui/mod.rs:56 -/
def all : List Shape := [halfH, halfV, thirdH, thirdV, small, focus]

/-- SOURCE: lss/src/ui/mod.rs:58-67 -/
def name : Shape → String
  | halfH => "half-h"
  | halfV => "half-v"
  | thirdH => "third-h"
  | thirdV => "third-v"
  | small => "small"
  | focus => "focus"

/-- SOURCE: lss/src/ui/mod.rs:69-71 -/
def fromName (name : String) : Option Shape := all.find? fun s => s.name = name

end Shape

/-- The areas of the overview.
SOURCE: lss/src/ui/mod.rs:96-105 -/
inductive Panel where
  | serve
  | gpus
  | lanes
  | users
  | advice
  | incidents
  | alerts
deriving DecidableEq

/-- The page that an area opens.
SOURCE: lss/src/ui/mod.rs:124-136 -/
def Panel.page : Panel → PageId
  | serve => .latency
  | gpus => .gpus
  | lanes => .gateway
  | users => .users
  | advice => .advice
  | alerts => .alerts
  | incidents => .incidents

/-- SOURCE: lss/src/ui/mod.rs:159-169 -/
inductive View where
  | overview
  | page (p : PageId)
  | fleet
  | watch
deriving DecidableEq

/-- How the table of users is sorted.
SOURCE: lss-core/src/users.rs:252-261 -/
inductive UserSort where
  | busiest
  | requests24h
  | outputTokens
  | promptTokens
  | lastSeen
  | name
deriving DecidableEq

namespace UserSort

/-- SOURCE: lss-core/src/users.rs:264 -/
def all : List UserSort := [busiest, requests24h, outputTokens, promptTokens, lastSeen, name]

/-- SOURCE: lss-core/src/users.rs:277-279 -/
def next (s : UserSort) : UserSort := (all[(all.idxOf s + 1) % all.length]?).getD s

end UserSort

/-- SOURCE: lss-core/src/series.rs:25 -/
def ranges : List String := ["15m", "1h", "6h", "24h", "7d"]

/-- SOURCE: lss/src/data.rs:119 -/
def defaultRange : ℕ := 1

/-- SOURCE: lss/src/data.rs:121-123 -/
def rangeLabel (idx : ℕ) : String := (ranges[idx % ranges.length]?).getD ""

/-! ## What the collectors answer -/

/-- A source that is followed, and the date of the newest thing it has published.
SOURCE: lss-core/src/watch.rs:33-41, 46-60 -/
structure WatchSource where
  name : String
  newest : Option String

/-- What the screen reads of `/status` apart from drawing it.
SOURCE: lss/src/ui/mod.rs:396, 567; lss/src/data.rs:163-165 -/
structure Status where
  gateAbsent : Bool
  /-- none where no file of sources is set -/
  watch : Option (List WatchSource) := none
  gpus : List ℕ := []
  /-- the series ids of the users, the busiest first -/
  rows : List String := []
  bench : Option String := none

/-- SOURCE: lss/src/data.rs:159 -/
def chartUsers : ℕ := 6

/-- What the requests of a page depend on besides the range.
SOURCE: lss/src/data.rs:152-156 -/
structure PageCtx where
  gpus : List ℕ := []
  userIds : List String := []

/-- SOURCE: lss/src/data.rs:161-166 -/
def PageCtx.of (s : Status) : PageCtx :=
  { gpus := s.gpus
    userIds := s.rows.take chartUsers ++ s.bench.toList }

/-- What a page shows: the answers to its requests, one after the other.
SOURCE: lss/src/data.rs:189-202 -/
structure PageData where
  page : Option PageId := none
  rangeIdx : ℕ := 0
  answers : List (Except String String) := []

/-- One server of the fleet, and what its collector said last.
SOURCE: lss/src/ui/mod.rs:181-187 -/
structure FleetEntry where
  name : String
  url : String
  state : Option (Except String Status) := none

/-! ## The state of the screen -/

/-- SOURCE: lss/src/ui/mod.rs:173-178 -/
inductive Action where
  | startBench
  | switchServer
deriving DecidableEq

/-- What the last frame wrote down: the first row, the rows shown and the rows in total of the page
and of the help, and the areas.
SOURCE: lss/src/ui/mod.rs:237-240, 266-284 -/
structure Drawn where
  pageRows : ℕ × ℕ × ℕ := (0, 0, 0)
  helpRows : ℕ × ℕ × ℕ := (0, 0, 0)
  rects : List (Panel × Rect) := []
  dashPageRows : List (PageId × ℕ × ℕ) := []
  compareLen : ℕ := 0

/-- SOURCE: lss/src/ui/mod.rs:221-347 -/
structure App where
  url : String := ""
  status : Option Status := none
  error : Option String := none
  lastOk : Option ℤ := none
  pinned : Option Shape := none
  showHelp : Bool := false
  helpScroll : ℕ := 0
  light : Bool := false
  chartLines : Bool := false
  dash : Bool := true
  view : View := .overview
  focus : Panel := .serve
  rangeIdx : ℕ := defaultRange
  scroll : ℕ := 0
  pageData : PageData := {}
  drawn : Drawn := {}
  userSort : UserSort := .busiest
  compareOpen : Bool := false
  compareSel : ℕ := 1
  benchPrompt : Bool := false
  benchLocal : Bool := false
  benchCommand : String := "lss bench quick"
  benchMessage : Option String := none
  action : Option Action := none
  fleet : List FleetEntry := []
  serverIdx : ℕ := 0
  watchSeen : String → Option String := fun _ => none
  watchNew : List String := []

/-- The keys that the screen knows.
SOURCE: lss/src/ui/mod.rs:494-725 -/
inductive Key where
  | char (c : Char)
  | esc
  | enter
  | up
  | down
  | left
  | right
  | pageUp
  | pageDown
  | homeKey
  | endKey
  | tab
  | backTab
  | other
deriving DecidableEq

namespace App

/-- SOURCE: lss/src/ui/mod.rs:350-352 -/
def multiServer (a : App) : Bool := 1 < a.fleet.length

/-- Everything on screen belongs to the old server, so it is dropped.
SOURCE: lss/src/ui/mod.rs:356-369 -/
def switchServer (a : App) (step : ℤ) : App :=
  if a.multiServer then
    let idx := ((a.serverIdx + step) % (a.fleet.length : ℤ)).toNat
    { a with
      serverIdx := idx
      url := (a.fleet[idx]?).elim a.url FleetEntry.url
      status := none
      error := none
      lastOk := none
      pageData := {}
      benchMessage := none
      action := some .switchServer }
  else a

/-- SOURCE: lss/src/ui/mod.rs:372-377 -/
def cycleLayout (a : App) : App :=
  { a with
    pinned := match a.pinned with
      | none => Shape.all.head?
      | some s => Shape.all[Shape.all.idxOf s + 1]? }

/-- SOURCE: lss/src/ui/mod.rs:395-397 -/
def gateAbsent (a : App) : Bool := a.status.any Status.gateAbsent

/-- SOURCE: lss/src/ui/mod.rs:400-402 -/
def ring (a : App) : List PageId := PageId.visiblePages a.gateAbsent

/-- A hidden page is never opened.
SOURCE: lss/src/ui/mod.rs:379-391 -/
def openPage (a : App) (p : PageId) : App :=
  if p ∈ a.ring then
    if a.view = .page p then a
    else { a with view := .page p, scroll := 0, compareOpen := false, benchPrompt := false }
  else a

/-- A page that may be there is opened. -/
def openSome (a : App) (p : Option PageId) : App := p.elim a a.openPage

/-- SOURCE: lss/src/ui/mod.rs:405-408 -/
def backToOverview (a : App) : App := { a with view := .overview, scroll := 0 }

/-- SOURCE: lss/src/ui/mod.rs:417-435 -/
def openNextInRing (a : App) : App :=
  match a.view with
  | .overview => a.openSome a.ring.head?
  | .page p =>
    if a.ring.getLast? = some p then a.backToOverview
    else (a.ring.find? fun q => p.number < q.number).elim a.backToOverview a.openPage
  | _ => a

/-- SOURCE: lss/src/ui/mod.rs:438-456 -/
def openPrevInRing (a : App) : App :=
  match a.view with
  | .overview => a.openSome a.ring.getLast?
  | .page p =>
    if a.ring.head? = some p then a.backToOverview
    else (a.ring.reverse.find? fun q => q.number < p.number).elim a.backToOverview a.openPage
  | _ => a

/-- What the fetch thread should be loading.
SOURCE: lss/src/ui/mod.rs:459-464 -/
def wanted (a : App) : Option (PageId × ℕ) :=
  match a.view with
  | .page p => some (p, a.rangeIdx)
  | _ => none

/-- Twice the centre of an area. -/
def centre (r : Rect) : ℤ × ℤ := (2 * r.x + r.width, 2 * r.y + r.height)

/-- How far another area is in a direction, or none where it does not lie there.
SOURCE: lss/src/ui/mod.rs:475, 481-485 -/
def reach (dx dy : ℤ) (here r : Rect) : Option ℕ :=
  let c := centre r
  let f := centre here
  let along := if dx ≠ 0 then (c.1 - f.1) * dx else (c.2 - f.2) * dy
  let across := if dx ≠ 0 then (c.2 - f.2).natAbs else (c.1 - f.1).natAbs
  let overlaps := if dx ≠ 0 then decide (r.y < here.y + here.height ∧ here.y < r.y + r.height)
    else decide (r.x < here.x + here.width ∧ here.x < r.x + r.width)
  if 0 < along ∧ overlaps then some (along.toNat * 4 + across) else none

/-- The nearest area in a direction, by where they were drawn.
SOURCE: lss/src/ui/mod.rs:467-491 -/
def nearest (a : App) (dx dy : ℤ) : Panel :=
  match a.drawn.rects.find? fun q => q.1 = a.focus with
  | none => a.drawn.rects.head?.elim a.focus Prod.fst
  | some (_, here) =>
    let reached := (a.drawn.rects.filter fun q => q.1 ≠ a.focus).filterMap fun q =>
      (reach dx dy here q.2).map fun d => (d, q.1)
    (reached.argmin Prod.fst).elim a.focus Prod.snd

/-- SOURCE: lss/src/ui/mod.rs:467-491 -/
def moveFocus (a : App) (dx dy : ℤ) : App := { a with focus := a.nearest dx dy }

/-! ## Keys -/

/-- Up and down the help, a table or a page, from the rows that were drawn.
SOURCE: lss/src/ui/mod.rs:501-515, 679-684, 708-713 -/
def scrolled (rows : ℕ × ℕ × ℕ) (scroll : ℕ) : Key → ℕ
  | .up => rows.1 - 1
  | .down => min (rows.1 + 1) (rows.2.2 - 1)
  | .pageUp => rows.1 - max rows.2.1 1
  | .pageDown => min (rows.1 + max rows.2.1 1) (rows.2.2 - 1)
  | .homeKey => 0
  | .endKey => rows.2.2 - 1
  | _ => scroll

/-- A key while the help is shown.
SOURCE: lss/src/ui/mod.rs:495-519 -/
def onHelpKey (a : App) (k : Key) : App :=
  match k with
  | .esc | .char '?' | .char 'q' | .enter => { a with showHelp := false }
  | k => { a with helpScroll := scrolled a.drawn.helpRows a.helpScroll k }

/-- The keys that start the benchmark that is offered. -/
def confirms : Key → Bool
  | .char 'y' | .char 'Y' | .enter => true
  | _ => false

/-- The keys that close the prompt. -/
def declines : Key → Bool
  | .esc | .char 'n' | .char 'N' | .char 'b' | .char 'q' | .enter => true
  | _ => false

/-- A key while a benchmark is offered.
SOURCE: lss/src/ui/mod.rs:520-532 -/
def onBenchKey (a : App) (k : Key) : App :=
  if confirms k && a.benchLocal then { a with action := some .startBench, benchPrompt := false }
  else if declines k then { a with benchPrompt := false }
  else a

/-- The sources that have something newer than what was seen last.
SOURCE: lss/src/ui/mod.rs:568-573 -/
def newSources (seen : String → Option String) (sources : List WatchSource) : List String :=
  (sources.filter fun src => src.newest.any fun date =>
    (seen src.name).all fun last => decide (last < date)).map WatchSource.name

/-- SOURCE: lss/src/ui/mod.rs:574-578 -/
def seeSources (seen : String → Option String) (sources : List WatchSource) : String → Option String :=
  sources.foldl (fun seen src => src.newest.elim seen fun date =>
    Function.update seen src.name (some date)) seen

/-- SOURCE: lss/src/ui/mod.rs:566-584 -/
def openWatch (a : App) : App :=
  match a.status.bind Status.watch with
  | some sources =>
    { a with
      watchNew := newSources a.watchSeen sources
      watchSeen := seeSources a.watchSeen sources
      view := .watch
      scroll := 0 }
  | none => { a with watchNew := [], view := .watch, scroll := 0 }

/-- The row of page 1 that is being read, as sixteen bits.
SOURCE: lss/src/ui/mod.rs:649 -/
def readingRow (a : App) : ℕ :=
  min (max a.scroll a.drawn.pageRows.1) (a.drawn.pageRows.2.2 - 1) % 2 ^ 16

/-- The page of the box that is being read.
SOURCE: lss/src/ui/mod.rs:651 -/
def readingPage (a : App) : Option PageId :=
  (a.drawn.dashPageRows.find? fun q =>
    decide (q.2.1 ≤ a.readingRow ∧ a.readingRow < q.2.2)).map Prod.fst

/-- A key on page 1.
SOURCE: lss/src/ui/mod.rs:616-658 -/
def onDashKey (a : App) (k : Key) : App :=
  let rows := a.drawn.pageRows
  match k with
  | .down => { a with scroll := min (max a.scroll rows.1 + 1) (rows.2.2 - 1) }
  | .pageDown => { a with scroll := min (max a.scroll rows.1 + max rows.2.1 1) (rows.2.2 - 1) }
  | .tab => a.openNextInRing
  | .backTab => a.openPrevInRing
  | .enter => a.openSome a.readingPage
  | k => { a with scroll := scrolled rows a.scroll k }

/-- A key on the grid.
SOURCE: lss/src/ui/mod.rs:659-672 -/
def onGridKey (a : App) : Key → App
  | .left => a.moveFocus (-1) 0
  | .right => a.moveFocus 1 0
  | .up => a.moveFocus 0 (-1)
  | .down => a.moveFocus 0 1
  | .enter => a.openPage a.focus.page
  | .tab => a.openNextInRing
  | .backTab => a.openPrevInRing
  | _ => a

/-- A key on the page that compares.
SOURCE: lss/src/ui/mod.rs:688-702 -/
def onCompareKey (a : App) (k : Key) : App :=
  let n := max a.drawn.compareLen 1
  match k with
  | .enter => { a with compareOpen := !a.compareOpen }
  | .up => { a with compareSel := (a.compareSel + n - 1) % n }
  | .down => { a with compareSel := (a.compareSel + 1) % n }
  | .tab | .right => a.openNextInRing
  | .backTab | .left => a.openPrevInRing
  | _ => a

/-- A key on any other page.
SOURCE: lss/src/ui/mod.rs:703-721 -/
def onPageKey (a : App) : Key → App
  | .tab | .right => a.openNextInRing
  | .backTab | .left => a.openPrevInRing
  | k => { a with scroll := scrolled a.drawn.pageRows a.scroll k }

/-- A key that means something on each view.
SOURCE: lss/src/ui/mod.rs:613-722 -/
def onViewKey (a : App) (k : Key) : App :=
  match a.view with
  | .overview => if a.dash then a.onDashKey k else a.onGridKey k
  | .fleet | .watch => { a with scroll := scrolled a.drawn.pageRows a.scroll k }
  | .page p =>
    if p = .model ∧ (a.compareOpen ∨ k = .enter) then a.onCompareKey k else a.onPageKey k

/-- A letter or a digit.
SOURCE: lss/src/ui/mod.rs:535-611 -/
def onChar (a : App) (c : Char) : App :=
  match c with
  | '?' => { a with showHelp := true, helpScroll := 0 }
  | 'T' | 't' => { a with light := !a.light }
  | 'L' | 'l' => a.cycleLayout
  | 'c' | 'C' => { a with chartLines := !a.chartLines }
  | 'v' | 'V' => { a with dash := !a.dash, scroll := 0 }
  | '[' => a.switchServer (-1)
  | ']' => a.switchServer 1
  | 'f' | 'F' => if a.multiServer then { a with view := .fleet, scroll := 0 } else a
  | 'w' | 'W' => a.openWatch
  | 'r' | 'R' => { a with rangeIdx := (a.rangeIdx + 1) % ranges.length }
  | 's' | 'S' => if a.view = .page .users then { a with userSort := a.userSort.next } else a
  | 'b' | 'B' =>
    if a.view = .page .model then { a with benchPrompt := true, benchMessage := none } else a
  | '0' => a.backToOverview
  | 'a' | 'A' => a.openPage .advice
  | c => a.openSome (PageId.fromDigit c)

/-- What a key does.
SOURCE: lss/src/ui/mod.rs:493-725 -/
def onKey (a : App) (k : Key) : App :=
  if a.showHelp then a.onHelpKey k
  else if a.benchPrompt then a.onBenchKey k
  else
    match k with
    | .char c => a.onChar c
    | .esc => if a.compareOpen then { a with compareOpen := false } else a.backToOverview
    | .enter => if a.view = .fleet then a.backToOverview else a.onViewKey .enter
    | k => a.onViewKey k

/-- Does a key end the screen?
SOURCE: lss/src/ui/mod.rs:518, 531, 534, 724 -/
def quits (a : App) (k : Key) : Bool := !a.showHelp && !a.benchPrompt && decide (k = .char 'q')

end App

/-! ## What is remembered -/

/-- SOURCE: lss/src/prefs.rs:10-29 -/
structure Prefs where
  theme : String := ""
  layout : String := ""
  range : String := ""
  chart : String := ""
  page1 : String := ""
deriving DecidableEq

namespace Prefs

/-- SOURCE: lss/src/prefs.rs:86-94 -/
def of (a : App) : Prefs :=
  { theme := if a.light then "light" else "dark"
    layout := a.pinned.elim "auto" Shape.name
    range := rangeLabel a.rangeIdx
    chart := if a.chartLines then "lines" else "dots"
    page1 := if a.dash then "new" else "old" }

/-- SOURCE: lss/src/prefs.rs:96-106 -/
def apply (p : Prefs) (a : App) : App :=
  { a with
    light := p.theme = "light"
    pinned := Shape.fromName p.layout
    rangeIdx := if p.range ∈ ranges then ranges.idxOf p.range else a.rangeIdx
    dash := p.page1 ≠ "old"
    chartLines := p.chart = "lines" }

end Prefs

/-- `ui.json`: it is not there, it cannot be read, or it holds preferences. -/
abbrev PrefsFile := Option (Option Prefs)

/-- SOURCE: lss/src/prefs.rs:74-76 -/
def loadPrefs (file : Option Prefs) : Prefs := file.getD {}

/-- SOURCE: lss/src/prefs.rs:114-120 -/
def resolveChartLines (env : Option String) (prefs : Bool) : Bool :=
  if env = some "lines" then true else if env = some "dots" then false else prefs

/-- Whether there is a path to write to, and what was written last.
SOURCE: lss/src/prefs.rs:46-56 -/
structure Saver where
  saves : Bool
  saved : Prefs

/-- The file is written when something has changed.
SOURCE: lss/src/prefs.rs:58-71 -/
def Saver.note (s : Saver) (file : PrefsFile) (now : Prefs) : Saver × PrefsFile :=
  if now = s.saved then (s, file)
  else ({ s with saved := now }, if s.saves then some (some now) else file)

/-! ## Where the screen runs -/

/-- What does not change while the screen runs: what the collectors answer at each moment, which
hosts are addresses of this machine, and how `lss` was called. -/
structure Env where
  status : String → ℤ → Except String Status
  page : String → PageId → ℕ → PageCtx → ℤ → List (Except String String)
  bench : String → ℤ → String
  /-- an IP address that leads back to this machine -/
  loopback : List Char → Bool
  config : ClientConfig
  servers : List (String × String)
  first : Fin servers.length
  /-- `$LSS_CHART` -/
  chart : Option String := none
  noSave : Bool := false
  /-- `$LSS_PREFS` or the home directory is known -/
  hasPath : Bool := true

/-- The text between the first `://` and the second, or all of it.
SOURCE: lss/src/main.rs:319, 325 -/
def behindScheme (url : List Char) : List Char :=
  match splitOnce "://".toList url with
  | some (_, rest) => (splitOnce "://".toList rest).elim rest Prod.fst
  | none => url

/-- SOURCE: lss/src/main.rs:324-327 -/
def urlHost (url : String) : List Char :=
  let host := (behindScheme url.toList).takeWhile (· ≠ '/')
  (rsplitOnce ':' host).elim host Prod.fst

/-- Is the collector on this machine?
SOURCE: lss/src/main.rs:317-322 -/
def isLocal (loopback : List Char → Bool) (url : String) : Bool :=
  let host := ((urlHost url).dropWhile (· = '[')).rdropWhile (· = ']')
  host = "localhost".toList || loopback host

/-- The line that runs a quick benchmark from here.
SOURCE: lss/src/main.rs:329-333 -/
def sshLine (url benchSsh : String) : String :=
  let host := if trim benchSsh = "" then String.ofList (urlHost url) else trim benchSsh
  "ssh " ++ host ++ " lss bench quick"

/-- The host that a server has of its own for benchmarks.
SOURCE: lss/src/main.rs:153, 812 -/
def ownBenchSsh (c : ClientConfig) (url : String) : Option String :=
  (c.server.find? fun s => bareUrl (trim s.url) = url ∧ trim s.benchSsh ≠ "").map ServerEntry.benchSsh

namespace Env

/-- The URL of the server that the screen starts with. -/
def firstUrl (e : Env) : String := (e.servers.get e.first).2

/-- The host of the first server takes the place of the one that goes for all.
SOURCE: lss/src/main.rs:151-155 -/
def benchSsh (e : Env) : String := (ownBenchSsh e.config e.firstUrl).getD e.config.benchSsh

/-- What the prompt says after a switch.
SOURCE: lss/src/main.rs:811-815 -/
def benchCommand (e : Env) (url : String) : String :=
  sshLine url ((ownBenchSsh e.config url).getD e.benchSsh)

/-- SOURCE: lss/src/main.rs:753-761 -/
def startApp (e : Env) (file : PrefsFile) : App :=
  let a : App :=
    { url := e.firstUrl
      benchLocal := isLocal e.loopback e.firstUrl
      benchCommand := sshLine e.firstUrl e.benchSsh
      light := e.config.theme = "light"
      fleet := e.servers.map fun s => { name := s.1, url := s.2 }
      serverIdx := e.first }
  let a := file.elim a fun f => (loadPrefs f).apply a
  { a with chartLines := resolveChartLines e.chart a.chartLines }

end Env

/-! ## The threads -/

/-- What waits in the channel.
SOURCE: lss/src/main.rs:656-662 -/
inductive Msg where
  | status (url : String) (answer : Except String Status)
  | page (url : String) (data : PageData)
  | fleet (i : ℕ) (answer : Except String Status)

/-- Where the fetch thread stands in its loop.
SOURCE: lss/src/main.rs:705-734 -/
inductive Stage where
  | top
  | status
  | want
  | page (w : PageId × ℕ)

/-- SOURCE: lss/src/main.rs:701-704 -/
structure Fetcher where
  url : String := ""
  ctx : PageCtx := {}
  lastStatus : Option ℤ := none
  lastPage : Option (ℤ × PageId × ℕ) := none
  stage : Stage := .top

/-- The screen, what it shares with its threads, the channel and the file. Time is in milliseconds. -/
structure World where
  app : App
  current : String
  wanted : Option (PageId × ℕ) := none
  queue : List Msg := []
  fetcher : Fetcher := {}
  saver : Saver
  file : PrefsFile
  clock : ℤ := 0
  running : Bool := true

/-- SOURCE: lss/src/main.rs:739-763 -/
def start (e : Env) (file : PrefsFile) : World :=
  { app := e.startApp file
    current := e.firstUrl
    saver := { saves := e.hasPath && !e.noSave, saved := Prefs.of (e.startApp file) }
    file := file }

/-- What happens next. -/
inductive Event where
  | tick (ms : ℕ)
  | fetch
  | fleet (i : ℕ)
  | deliver
  | draw (d : Drawn)
  | key (k : Key)

/-- The fetch thread goes on.
SOURCE: lss/src/main.rs:705-734 -/
def fetchStep (e : Env) (w : World) : World :=
  let f := w.fetcher
  match f.stage with
  | .top =>
    if w.current = f.url then { w with fetcher := { f with stage := .status } }
    else { w with fetcher := { url := w.current, stage := .status } }
  | .status =>
    if f.lastStatus.all fun t => decide (2000 ≤ w.clock - t) then
      let r := e.status f.url w.clock
      { w with
        queue := w.queue ++ [.status f.url r]
        fetcher := { f with
          ctx := match r with
            | .ok s => PageCtx.of s
            | .error _ => f.ctx
          lastStatus := some w.clock
          stage := .want } }
    else { w with fetcher := { f with stage := .want } }
  | .want =>
    match w.wanted with
    | some want =>
      if f.lastPage.all fun l => decide (l.2 ≠ want ∨ 5000 ≤ w.clock - l.1) then
        { w with fetcher := { f with stage := .page want } }
      else { w with fetcher := { f with stage := .top } }
    | none => { w with fetcher := { f with lastPage := none, stage := .top } }
  | .page want =>
    let d : PageData :=
      { page := some want.1
        rangeIdx := want.2
        answers := e.page f.url want.1 want.2 f.ctx w.clock }
    { w with
      queue := w.queue ++ [.page f.url d]
      fetcher := { f with lastPage := some (w.clock, want), stage := .top } }

/-- A thread of the fleet asks its server; there is none where there is only one server.
SOURCE: lss/src/main.rs:666-692, 744-746 -/
def fleetStep (e : Env) (w : World) (i : ℕ) : World :=
  if 1 < e.servers.length then
    match e.servers[i]? with
    | some s => { w with queue := w.queue ++ [.fleet i (e.status s.2 w.clock)] }
    | none => w
  else w

/-- What the screen does with a message. An answer of another server is dropped.
SOURCE: lss/src/main.rs:776-792 -/
def takeMsg (now : ℤ) (a : App) : Msg → App
  | .fleet i r => { a with fleet := a.fleet.modify i fun f => { f with state := some r } }
  | .status url (.ok s) =>
    if url = a.url then { a with status := some s, error := none, lastOk := some now } else a
  | .status url (.error e) => if url = a.url then { a with error := some e } else a
  | .page url d => if url = a.url then { a with pageData := d } else a

/-- SOURCE: lss/src/main.rs:775 -/
def deliverStep (w : World) : World :=
  match w.queue with
  | m :: rest => { w with app := takeMsg (w.clock / 1000) w.app m, queue := rest }
  | [] => w

/-- What is done after a key, by what the key asked for.
SOURCE: lss/src/main.rs:807-823 -/
def settle (e : Env) (now : ℤ) (a : App) : App :=
  match a.action with
  | some .switchServer =>
    { a with
      action := none
      benchLocal := isLocal e.loopback a.url
      benchCommand := e.benchCommand a.url }
  | some .startBench => { a with action := none, benchMessage := some (e.bench a.url now) }
  | none => a

/-- Where a benchmark is asked for after a key. -/
def asks (a : App) : List String := if a.action = some .startBench then [a.url] else []

/-- SOURCE: lss/src/main.rs:798-825 -/
def keyStep (e : Env) (w : World) (k : Key) : World × List String :=
  if w.app.quits k then ({ w with running := false }, [])
  else
    let a := w.app.onKey k
    let settled := settle e w.clock a
    let noted := w.saver.note w.file (Prefs.of settled)
    ({ w with
      app := settled
      current := if a.action = some .switchServer then a.url else w.current
      wanted := settled.wanted
      saver := noted.1
      file := noted.2 },
     asks a)

/-- One thing happens; what comes with it are the URLs that a benchmark was posted to.
SOURCE: lss/src/main.rs:739-832 -/
def step (e : Env) (w : World) (v : Event) : World × List String :=
  if w.running then
    match v with
    | .tick ms => ({ w with clock := w.clock + ms }, [])
    | .fetch => (fetchStep e w, [])
    | .fleet i => (fleetStep e w i, [])
    | .deliver => (deliverStep w, [])
    | .draw d => ({ w with app := { w.app with drawn := d } }, [])
    | .key k => keyStep e w k
  else (w, [])

end Lss.Model.Screen
