import Lss.Analysis.ScreenKeys
import Lss.Library.Machine

/-!
# Whose answers are on screen

Whatever order keys, answers and the turns of the threads come in, what is on screen was said by the
server on screen: answers of the one before are dropped. A benchmark is only ever asked for on this
machine, and only where it was offered and confirmed for the server that was on screen then.
-/

set_option autoImplicit false

namespace Lss.Analysis.ScreenServers

open Lss.Library Lss.Model.Screen

variable (e : Env)

/-! ## What was said -/

/-- The collector at a URL has said so by now. -/
def Said (url : String) (now : ℤ) (answer : Except String Status) : Prop :=
  ∃ t ≤ now, answer = e.status url t

/-- What pages are fetched with is what their own collector has said, or nothing is known. -/
def Context (url : String) (now : ℤ) (ctx : PageCtx) : Prop :=
  ctx = {} ∨ ∃ s, Said e url now (.ok s) ∧ ctx = PageCtx.of s

/-- A page is empty, or it is what the collector at a URL has answered by now. -/
def Answered (url : String) (now : ℤ) (d : PageData) : Prop :=
  d = {} ∨ ∃ p range ctx, ∃ t ≤ now, Context e url t ctx ∧
    d = { page := some p, rangeIdx := range, answers := e.page url p range ctx t }

/-- A message was said by the collector that it names. -/
def Spoken (now : ℤ) : Msg → Prop
  | .status url r => Said e url now r
  | .page url d => Answered e url now d
  | .fleet i r => ∃ s, e.servers[i]? = some s ∧ Said e s.2 now r

/-- What an app shows was said by the server on screen, and each row of the fleet by its own. -/
structure Faithful (now : ℤ) (a : App) : Prop where
  listed : (e.servers[a.serverIdx]?).map Prod.snd = some a.url
  status : ∀ s, a.status = some s → Said e a.url now (.ok s)
  error : ∀ text, a.error = some text → Said e a.url now (.error text)
  page : Answered e a.url now a.pageData
  fleet : ∀ i : ℕ, (a.fleet[i]?).map (fun f => (f.name, f.url)) = e.servers[i]?
  row : ∀ (i : ℕ) f r, a.fleet[i]? = some f → f.state = some r → Said e f.url now r
  settled : a.action = none
  offered : a.benchLocal = isLocal e.loopback a.url
  command : a.benchCommand = e.benchCommand a.url

/-- What holds of the screen and its threads at any time. -/
structure Honest (w : World) : Prop where
  app : Faithful e w.clock w.app
  current : w.current = w.app.url
  queue : ∀ m ∈ w.queue, Spoken e w.clock m
  context : Context e w.fetcher.url w.clock w.fetcher.ctx

variable {e}

/-! ## Time goes by -/

theorem Said.later {url : String} {now later : ℤ} {r : Except String Status}
    (h : Said e url now r) (le : now ≤ later) : Said e url later r := by
  obtain ⟨t, ht, hr⟩ := h
  exact ⟨t, ht.trans le, hr⟩

theorem Context.later {url : String} {now later : ℤ} {ctx : PageCtx}
    (h : Context e url now ctx) (le : now ≤ later) : Context e url later ctx := by
  cases h with
  | inl nothing => exact .inl nothing
  | inr known =>
      obtain ⟨s, said, hs⟩ := known
      exact .inr ⟨s, said.later le, hs⟩

theorem Answered.later {url : String} {now later : ℤ} {d : PageData}
    (h : Answered e url now d) (le : now ≤ later) : Answered e url later d := by
  cases h with
  | inl nothing => exact .inl nothing
  | inr known =>
      obtain ⟨p, range, ctx, t, ht, hd⟩ := known
      exact .inr ⟨p, range, ctx, t, ht.trans le, hd⟩

theorem Spoken.later {now later : ℤ} {m : Msg} (h : Spoken e now m) (le : now ≤ later) :
    Spoken e later m := by
  cases m with
  | status url r => exact Said.later h le
  | page url d => exact Answered.later h le
  | fleet i r =>
      obtain ⟨s, hs, said⟩ := h
      exact ⟨s, hs, said.later le⟩

theorem Faithful.later {now later : ℤ} {a : App} (h : Faithful e now a) (le : now ≤ later) :
    Faithful e later a :=
  { h with
    status := fun s hs => (h.status s hs).later le
    error := fun t ht => (h.error t ht).later le
    page := h.page.later le
    row := fun i f r hf hr => (h.row i f r hf hr).later le }

/-- Only what belongs to the server on screen counts. -/
theorem Faithful.congr {now : ℤ} {a b : App} (h : Faithful e now a) (same : b.server = a.server) :
    Faithful e now b := by
  simp only [App.server, ServerPart.mk.injEq] at same
  obtain ⟨url, status, error, -, page, fleet, idx, offered, command, action⟩ := same
  exact {
    listed := by rw [url, idx]; exact h.listed
    status := by rw [url, status]; exact h.status
    error := by rw [url, error]; exact h.error
    page := by rw [url, page]; exact h.page
    fleet := by rw [fleet]; exact h.fleet
    row := by rw [fleet]; exact h.row
    settled := by rw [action]; exact h.settled
    offered := by rw [url, offered]; exact h.offered
    command := by rw [url, command]; exact h.command }

/-! ## The threads -/

theorem honest_fetchStep {w : World} (h : Honest e w) : Honest e (fetchStep e w) := by
  have said : ∀ m, Spoken e w.clock m → ∀ m' ∈ w.queue ++ [m], Spoken e w.clock m' := by
    intro m hm m' hm'
    cases List.mem_append.mp hm' with
    | inl old => exact h.queue m' old
    | inr new =>
        rw [List.mem_singleton.mp new]
        exact hm
  unfold fetchStep
  dsimp only
  split
  · split
    · exact { h with }
    · exact { h with context := .inl rfl }
  · split
    · refine { h with
        queue := said _ ⟨w.clock, le_refl _, rfl⟩
        context := ?_ }
      dsimp only
      split
      case h_1 s hs => exact .inr ⟨s, ⟨w.clock, le_refl _, hs.symm⟩, rfl⟩
      case h_2 => exact h.context
    · exact { h with }
  · split
    · split <;> exact { h with }
    · exact { h with }
  · exact { h with
      queue := said _ (.inr ⟨_, _, _, w.clock, le_refl _, h.context, rfl⟩) }

theorem honest_fleetStep {w : World} (h : Honest e w) (i : ℕ) : Honest e (fleetStep e w i) := by
  unfold fleetStep
  split
  · split
    case h_1 s hs =>
      refine { h with queue := ?_ }
      intro m hm
      cases List.mem_append.mp hm with
      | inl old => exact h.queue m old
      | inr new =>
          rw [List.mem_singleton.mp new]
          exact ⟨s, hs, w.clock, le_refl _, rfl⟩
    case h_2 => exact h
  · exact h

/-! ## Messages -/

/-- A row of the fleet that is told something new keeps its name and its server. -/
theorem faithful_told {now : ℤ} {a : App} (h : Faithful e now a) {i : ℕ} {s : String × String}
    (hs : e.servers[i]? = some s) {r : Except String Status} (said : Said e s.2 now r) :
    Faithful e now { a with fleet := a.fleet.modify i fun f => { f with state := some r } } := by
  refine { h with
    fleet := ?_
    row := ?_ }
  · intro j
    rw [List.getElem?_modify, Option.map_eq_map, Option.map_map, ← h.fleet j]
    congr 1
    funext f
    dsimp only [Function.comp_apply]
    split <;> rfl
  · intro j f r' hf hr'
    dsimp only at hf
    rw [List.getElem?_modify] at hf
    obtain ⟨g, hg, rfl⟩ := Option.map_eq_some_iff.mp hf
    by_cases here : i = j
    · subst here
      have own : some (g.name, g.url) = some s := by
        rw [← hs, ← h.fleet i, hg, Option.map_some]
      rw [if_pos rfl] at hr' ⊢
      cases own
      cases hr'
      exact said
    · rw [if_neg here] at hr' ⊢
      exact h.row j g r' hg hr'

theorem faithful_takeMsg {now : ℤ} {a : App} {m : Msg} (h : Faithful e now a)
    (spoken : Spoken e now m) (t : ℤ) : Faithful e now (takeMsg t a m) := by
  cases m with
  | status url r =>
      cases r with
      | ok s =>
          dsimp only [takeMsg]
          split
          case isTrue here =>
            subst here
            exact { h with
              status := by
                rintro _ ⟨⟩
                exact spoken
              error := by rintro _ ⟨⟩ }
          case isFalse => exact h
      | error text =>
          dsimp only [takeMsg]
          split
          case isTrue here =>
            subst here
            exact { h with
              error := by
                rintro _ ⟨⟩
                exact spoken }
          case isFalse => exact h
  | page url d =>
      dsimp only [takeMsg]
      split
      case isTrue here =>
        subst here
        exact { h with page := spoken }
      case isFalse => exact h
  | fleet i r =>
      obtain ⟨s, hs, said⟩ := spoken
      exact faithful_told h hs said

/-- What only keys change. -/
structure Untouched (a b : App) : Prop where
  view : b.view = a.view
  url : b.url = a.url
  prompt : b.benchPrompt = a.benchPrompt
  prefs : Prefs.of b = Prefs.of a

theorem untouched_refl (a : App) : Untouched a a := ⟨rfl, rfl, rfl, rfl⟩

theorem untouched_takeMsg (t : ℤ) (a : App) (m : Msg) : Untouched a (takeMsg t a m) := by
  unfold takeMsg
  split
  · exact ⟨rfl, rfl, rfl, rfl⟩
  all_goals
    split
    · exact ⟨rfl, rfl, rfl, rfl⟩
    · exact untouched_refl a

theorem honest_deliverStep {w : World} (h : Honest e w) : Honest e (deliverStep w) := by
  unfold deliverStep
  split
  case h_1 m rest hq =>
    have spoken := h.queue m (by rw [hq]; exact List.mem_cons_self)
    exact {
      app := faithful_takeMsg h.app spoken _
      current := h.current.trans (untouched_takeMsg _ _ m).url.symm
      queue := fun m' hm' => h.queue m' (by rw [hq]; exact List.mem_cons_of_mem _ hm')
      context := h.context }
  case h_2 => exact h

/-! ## Keys -/

/-- The server that a switch leads to is one of the list. -/
theorem switched_lt {a : App} (multi : a.multiServer = true) (d : ℤ) :
    ((a.serverIdx + d) % (a.fleet.length : ℤ)).toNat < a.fleet.length := by
  have size : 1 < a.fleet.length := by simpa [App.multiServer] using multi
  have below := Int.emod_lt_of_pos (a.serverIdx + d) (b := (a.fleet.length : ℤ)) (by omega)
  have above := Int.emod_nonneg (a.serverIdx + d) (b := (a.fleet.length : ℤ)) (by omega)
  omega

theorem faithful_switchServer {now : ℤ} {a : App} (h : Faithful e now a) (d : ℤ)
    (multi : a.multiServer = true) : Faithful e now (settle e now (a.switchServer d)) := by
  obtain ⟨f, hf⟩ : ∃ f, a.fleet[((a.serverIdx + d) % (a.fleet.length : ℤ)).toNat]? = some f :=
    ⟨_, List.getElem?_eq_getElem (switched_lt multi d)⟩
  have own := h.fleet ((a.serverIdx + d) % (a.fleet.length : ℤ)).toNat
  rw [hf] at own
  unfold App.switchServer
  rw [if_pos multi]
  dsimp only
  rw [hf]
  exact {
    listed := by
      dsimp only [settle, Option.elim]
      rw [← own]
      rfl
    status := by rintro _ ⟨⟩
    error := by rintro _ ⟨⟩
    page := .inl rfl
    fleet := h.fleet
    row := h.row
    settled := rfl
    offered := rfl
    command := rfl }

theorem settle_of_none {now : ℤ} {a : App} (h : a.action = none) : settle e now a = a := by
  unfold settle
  rw [h]

/-- What a key leaves behind, by what it can do. -/
theorem settled_cases {w : World} (h : Honest e w) (k : Key) :
    Faithful e w.clock (settle e w.clock (w.app.onKey k)) ∧
      (if (w.app.onKey k).action = some .switchServer then (w.app.onKey k).url else w.current) =
        (settle e w.clock (w.app.onKey k)).url := by
  have quiet : ∀ a : App, a.server = w.app.server →
      Faithful e w.clock (settle e w.clock a) ∧
        (if a.action = some .switchServer then a.url else w.current) = (settle e w.clock a).url := by
    intro a same
    have none : a.action = none := (congrArg ServerPart.action same).trans h.app.settled
    have url : a.url = w.app.url := congrArg ServerPart.url same
    rw [settle_of_none none, none]
    exact ⟨h.app.congr same, h.current.trans url.symm⟩
  have effect := App.onKey_effect w.app k
  generalize w.app.onKey k = b at effect ⊢
  cases effect with
  | switched _ d =>
      by_cases multi : w.app.multiServer = true
      · refine ⟨faithful_switchServer h.app d multi, ?_⟩
        unfold App.switchServer
        rw [if_pos multi]
        rfl
      · have stays : w.app.switchServer d = w.app := by
          unfold App.switchServer
          rw [if_neg multi]
        rw [stays]
        exact quiet w.app rfl
  | started =>
      refine ⟨h.app.congr ?_, h.current⟩
      simp only [settle, App.server, h.app.settled]
  | offered => exact quiet _ rfl
  | helped => exact quiet _ rfl
  | walked walk => exact quiet _ walk.server

theorem honest_keyStep {w : World} (h : Honest e w) (k : Key) : Honest e (keyStep e w k).1 := by
  unfold keyStep
  split
  · exact { h with }
  · obtain ⟨app, current⟩ := settled_cases h k
    exact { h with
      app := app
      current := current }

/-! ## Whole runs -/

theorem honest_step {w : World} (h : Honest e w) (v : Event) : Honest e (step e w v).1 := by
  unfold step
  split
  · split
    case h_1 ms =>
      have le : w.clock ≤ w.clock + ms := by omega
      exact {
        app := h.app.later le
        current := h.current
        queue := fun m hm => (h.queue m hm).later le
        context := h.context.later le }
    case h_2 => exact honest_fetchStep h
    case h_3 => exact honest_fleetStep h _
    case h_4 => exact honest_deliverStep h
    case h_5 => exact { h with app := h.app.congr rfl }
    case h_6 => exact honest_keyStep h _
  · exact h

theorem honest_start (file : PrefsFile) : Honest e (start e file) := by
  have fresh : Faithful e 0
      { url := e.firstUrl
        benchLocal := isLocal e.loopback e.firstUrl
        benchCommand := sshLine e.firstUrl e.benchSsh
        fleet := e.servers.map fun s => { name := s.1, url := s.2 }
        serverIdx := e.first } := {
    listed := by
      dsimp only
      rw [List.getElem?_eq_getElem e.first.isLt]
      rfl
    status := by rintro _ ⟨⟩
    error := by rintro _ ⟨⟩
    page := .inl rfl
    fleet := by
      intro i
      dsimp only
      rw [List.getElem?_map, Option.map_map]
      exact Option.map_id'
    row := by
      intro i f r hf hr
      rw [List.getElem?_map] at hf
      obtain ⟨s, -, rfl⟩ := Option.map_eq_some_iff.mp hf
      cases hr
    settled := rfl
    offered := rfl
    command := by
      dsimp only [Env.benchCommand, Env.benchSsh]
      cases ownBenchSsh e.config e.firstUrl <;> rfl }
  exact {
    app := fresh.congr (by cases file <;> rfl)
    current := by cases file <;> rfl
    queue := by simp [start]
    context := .inl rfl }

theorem honest_run (file : PrefsFile) (events : List Event) :
    Honest e (Machine.run (step e) (start e file) events).1 :=
  Machine.run_induction (step e) (fun _ w _ => Honest e w) (honest_start file)
    (fun _ _ _ v h => honest_step h v) events

/-- A step that is no key leaves what keys change, and it posts nothing. -/
structure Aside (w : World) (r : World × List String) : Prop where
  app : Untouched w.app r.1.app
  saver : r.1.saver = w.saver
  file : r.1.file = w.file
  posts : r.2 = []

theorem aside_refl (w : World) : Aside w (w, []) := ⟨untouched_refl _, rfl, rfl, rfl⟩

theorem aside_fetchStep (w : World) : Aside w (fetchStep e w, []) := by
  unfold fetchStep
  dsimp only
  split
  · split <;> exact ⟨untouched_refl _, rfl, rfl, rfl⟩
  · split <;> exact ⟨untouched_refl _, rfl, rfl, rfl⟩
  · split
    · split <;> exact ⟨untouched_refl _, rfl, rfl, rfl⟩
    · exact ⟨untouched_refl _, rfl, rfl, rfl⟩
  · exact ⟨untouched_refl _, rfl, rfl, rfl⟩

theorem aside_fleetStep (w : World) (i : ℕ) : Aside w (fleetStep e w i, []) := by
  unfold fleetStep
  split
  · split
    · exact ⟨untouched_refl _, rfl, rfl, rfl⟩
    · exact aside_refl w
  · exact aside_refl w

theorem aside_deliverStep (w : World) : Aside w (deliverStep w, []) := by
  unfold deliverStep
  split
  · exact ⟨untouched_takeMsg _ _ _, rfl, rfl, rfl⟩
  · exact aside_refl w

/-- Every step is one on the side, or a key that does not end the screen. -/
theorem step_cases (w : World) (v : Event) :
    Aside w (step e w v) ∨
      ∃ k, v = .key k ∧ w.app.quits k = false ∧ step e w v = keyStep e w k := by
  unfold step
  split
  · split
    case h_1 => exact .inl ⟨untouched_refl _, rfl, rfl, rfl⟩
    case h_2 => exact .inl (aside_fetchStep w)
    case h_3 => exact .inl (aside_fleetStep w _)
    case h_4 => exact .inl (aside_deliverStep w)
    case h_5 => exact .inl ⟨⟨rfl, rfl, rfl, rfl⟩, rfl, rfl, rfl⟩
    case h_6 k =>
      by_cases quits : w.app.quits k = true
      · refine .inl ?_
        unfold keyStep
        rw [if_pos quits]
        exact ⟨untouched_refl _, rfl, rfl, rfl⟩
      · exact .inr ⟨k, rfl, Bool.eq_false_iff.mpr quits, rfl⟩
  · exact .inl (aside_refl w)

theorem keyStep_of_stays {w : World} {k : Key} (h : w.app.quits k = false) :
    (keyStep e w k).1.app = settle e w.clock (w.app.onKey k) ∧
      (keyStep e w k).2 = asks (w.app.onKey k) := by
  unfold keyStep
  rw [if_neg (by simp [h])]
  exact ⟨rfl, rfl⟩

theorem untouched_settle (now : ℤ) (a : App) : Untouched a (settle e now a) := by
  unfold settle
  split
  · exact ⟨rfl, rfl, rfl, rfl⟩
  · exact ⟨rfl, rfl, rfl, rfl⟩
  · exact untouched_refl a

/-! ## Benchmarks -/

/-- A benchmark is offered for the server at a URL. -/
def Offered (url : String) (w : World) : Prop := w.app.benchPrompt = true ∧ w.app.url = url

theorem not_offered_start (file : PrefsFile) (url : String) : ¬Offered url (start e file) := by
  rintro ⟨prompt, -⟩
  cases file <;> cases prompt

/-- A benchmark that is offered was offered before, or it is asked for on the page of the model. -/
theorem offered_step {w : World} {v : Event} {url : String} (now : Offered url (step e w v).1) :
    Offered url w ∨ w.app.url = url ∧ w.app.view = .page .model ∧
      ∃ c, (c = 'b' ∨ c = 'B') ∧ v = .key (.char c) := by
  obtain aside | ⟨k, hk, stays, stepped⟩ := step_cases (e := e) w v
  · exact .inl ⟨aside.app.prompt ▸ now.1, aside.app.url ▸ now.2⟩
  rw [stepped, Offered, (keyStep_of_stays stays).1] at now
  have settled := untouched_settle (e := e) w.clock (w.app.onKey k)
  rw [settled.prompt, settled.url] at now
  have effect := App.onKey_effect w.app k
  generalize w.app.onKey k = b at effect now
  cases effect with
  | switched calm d =>
      rw [App.prompt_switchServer, calm.2] at now
      exact absurd now.1 Bool.false_ne_true
  | started => exact absurd now.1 Bool.false_ne_true
  | offered _ key view =>
      cases key with
      | inl small => exact .inr ⟨now.2, view, 'b', .inl rfl, small ▸ hk⟩
      | inr large => exact .inr ⟨now.2, view, 'B', .inr rfl, large ▸ hk⟩
  | helped => exact .inl now
  | walked walk =>
      exact .inl ⟨walk.prompt now.1, (congrArg ServerPart.url walk.server).symm.trans now.2⟩

/-- A benchmark is posted by a key that confirms it, for the server on screen, on this machine. -/
theorem posted_step {w : World} (h : Honest e w) {v : Event} {url : String}
    (posted : url ∈ (step e w v).2) :
    Offered url w ∧ isLocal e.loopback url = true ∧
      ∃ k, App.confirms k = true ∧ v = .key k := by
  obtain aside | ⟨k, hk, stays, stepped⟩ := step_cases (e := e) w v
  · rw [aside.posts] at posted
    exact absurd posted List.not_mem_nil
  rw [stepped, (keyStep_of_stays stays).2, asks] at posted
  have effect := App.onKey_effect w.app k
  generalize w.app.onKey k = b at effect posted
  have quiet : b.action = none → False := by
    intro none
    rw [none] at posted
    simp at posted
  cases effect with
  | switched _ d =>
      unfold App.switchServer at posted quiet
      split at posted
      · simp at posted
      · simp [h.app.settled] at posted
  | started prompt confirmed here =>
      have url_eq : url = w.app.url := by simpa using posted
      subst url_eq
      exact ⟨⟨prompt, rfl⟩, h.app.offered ▸ here, k, confirmed, hk⟩
  | offered => exact (quiet h.app.settled).elim
  | helped => exact (quiet h.app.settled).elim
  | walked walk =>
      exact (quiet ((congrArg ServerPart.action walk.server).trans h.app.settled)).elim

/-- One server on this machine, without a gateway. -/
def oneServer : Env where
  status _ _ := .ok { gateAbsent := true }
  page _ _ _ _ _ := []
  bench _ _ := "asked for"
  loopback host := host = "127.0.0.1".toList
  config := {}
  servers := [("box", "http://127.0.0.1:8787")]
  first := 0

/-- A page that is hidden is on screen only as long as it has been since a key opened it, when it
was not hidden. -/
theorem hidden_page_stays (file : PrefsFile) (events : List Event) (p : PageId)
    (shown : (Machine.run (step e) (start e file) events).1.app.view = .page p) :
    ∃ before k after, events = before ++ .key k :: after ∧
      p ∈ (Machine.run (step e) (start e file) before).1.app.ring ∧
      ∀ part, part <+: after →
        (Machine.run (step e) (start e file) (before ++ .key k :: part)).1.app.view = .page p := by
  have closed : ¬(start e file).app.view = .page p := by
    intro shown
    cases file <;> cases shown
  obtain ⟨before, v, after, rfl, elsewhere, since⟩ :=
    Machine.run_since (P := fun w : World => w.app.view = .page p) _ closed shown
  have first := since [] List.nil_prefix
  rw [Machine.run_concat] at first
  obtain aside | ⟨k, rfl, stays, stepped⟩ :=
    step_cases (e := e) (Machine.run (step e) (start e file) before).1 v
  · exact absurd (aside.app.view ▸ first) elsewhere
  rw [stepped] at first
  dsimp only at first
  rw [(keyStep_of_stays stays).1, (untouched_settle _ _).view] at first
  cases App.opens_onKey first with
  | inl here => exact absurd here elsewhere
  | inr visible => exact ⟨before, k, after, rfl, visible, since⟩

/-- The users were opened before the collector had said that there is no gateway. -/
theorem hidden_page_on_screen :
    let w := (Machine.run (step oneServer) (start oneServer none)
      [.key (.char '4'), .fetch, .fetch, .deliver]).1
    w.app.view = .page .users ∧ PageId.users ∉ w.app.ring ∧
      ∃ before k after,
        [.key (.char '4'), .fetch, .fetch, .deliver] = before ++ Event.key k :: after ∧
        PageId.users ∈ (Machine.run (step oneServer) (start oneServer none) before).1.app.ring := by
  obtain ⟨before, k, after, parts, ring, -⟩ := hidden_page_stays (e := oneServer) none
    [.key (.char '4'), .fetch, .fetch, .deliver] .users (by decide)
  exact ⟨by decide, by decide, before, k, after, parts, ring⟩

end Lss.Analysis.ScreenServers
