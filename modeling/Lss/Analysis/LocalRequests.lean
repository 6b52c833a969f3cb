import Lss.Model.HttpServer

/-!
# What requests can do

Whatever other machines ask for, and in whatever order, the collector does what it does without
them, and this machine is told the same. A test alert that is accepted reaches the poll loop once. An
answer about the history is less than two seconds old.
-/

set_option autoImplicit false

namespace Lss.Analysis.LocalRequests

open Lss.Library Lss.Model Lss.Model.HttpServer

variable {ℓ β ρ : Type} {e : Env ℓ β ρ}

/-! ## Other machines -/

/-- A request is a question to the history. -/
def AsksHistory (r : Request) : Prop := (r.method = .get ∨ r.method = .head) ∧ isHistory (pathOf r.url)

instance (r : Request) : Decidable (AsksHistory r) := inferInstanceAs (Decidable (_ ∧ _))

/-- A request is made on this machine, to an address that only this machine has. -/
def localRequest (e : Env ℓ β ρ) (l : ℓ) (r : Request) : Bool :=
  fromHere (e.listenerIsLoopback l) r.peer

/-- No request of another machine. -/
def ours (e : Env ℓ β ρ) : Event ℓ β → Bool
  | .request l r => localRequest e l r
  | _ => true

/-- What this machine and the poll loop see, but for the answers that a thread keeps. -/
def shown (e : Env ℓ β ρ) : Seen ℓ → Bool
  | .answered l r _ => localRequest e l r && !decide (AsksHistory r)
  | .taken _ => true

theorem testAlert_stranger {here : Bool} {peer : Option Ip} (far : fromHere here peer = false)
    (isPost : Bool) (body : String) (s : Shared β) :
    (testAlert here peer isPost body s).1 = s := by
  unfold testAlert
  rw [if_pos far]

theorem benchPost_stranger {here : Bool} {peer : Option Ip} (far : fromHere here peer = false)
    (path body : String) (now : ℤ) (s : Shared β) :
    (benchPost e path here peer body now s).1 = s := by
  unfold benchPost
  dsimp only
  rw [if_pos far]

theorem maintenancePost_stranger {here : Bool} {peer : Option Ip}
    (far : fromHere here peer = false) (path body : String) (now : ℤ) (s : Shared β) :
    (maintenancePost e path here peer body now s).1 = s := by
  unfold maintenancePost
  dsimp only
  rw [if_pos far]

variable [DecidableEq ℓ]

/-- Two states in which the same is shared, at the same time. -/
def Alike (w v : World ℓ β) : Prop := w.shared = v.shared ∧ w.clock = v.clock

theorem serve_stranger {w v : World ℓ β} (alike : Alike w v) {l : ℓ} {r : Request}
    (far : localRequest e l r = false) : Alike (serve e w l r).1 v := by
  obtain ⟨shared, clock⟩ := alike
  unfold serve
  dsimp only
  split
  · exact ⟨(testAlert_stranger far _ _ _).trans shared, clock⟩
  split
  · exact ⟨(benchPost_stranger far _ _ _ _).trans shared, clock⟩
  split
  · exact ⟨(maintenancePost_stranger far _ _ _ _).trans shared, clock⟩
  split
  · exact ⟨shared, clock⟩
  split
  · exact ⟨shared, clock⟩
  · exact ⟨shared, clock⟩

theorem serve_alike {w v : World ℓ β} (alike : Alike w v) (l : ℓ) (r : Request) :
    Alike (serve e w l r).1 (serve e v l r).1 ∧
      (¬AsksHistory r → (serve e w l r).2 = (serve e v l r).2) := by
  obtain ⟨shared, clock⟩ := alike
  unfold serve
  dsimp only
  rw [shared, clock]
  split
  · exact ⟨⟨rfl, rfl⟩, fun _ => rfl⟩
  split
  · exact ⟨⟨rfl, rfl⟩, fun _ => rfl⟩
  split
  · exact ⟨⟨rfl, rfl⟩, fun _ => rfl⟩
  split
  case isTrue asks => exact ⟨⟨rfl, rfl⟩, fun other => absurd asks other⟩
  split
  · exact ⟨⟨shared, clock⟩, fun _ => rfl⟩
  · exact ⟨⟨shared, clock⟩, fun _ => rfl⟩

theorem step_ours {w v : World ℓ β} (alike : Alike w v) (i : Event ℓ β) :
    Alike (step e w i).1 (step e v i).1 ∧
      (step e w i).2.filter (shown e) = (step e v i).2.filter (shown e) := by
  obtain ⟨shared, clock⟩ := alike
  cases i with
  | tick ms => exact ⟨⟨shared, by simp [step, clock]⟩, rfl⟩
  | request l r =>
      obtain ⟨same, answer⟩ := serve_alike ⟨shared, clock⟩ (e := e) l r
      refine ⟨same, ?_⟩
      by_cases asks : AsksHistory r
      · simp [step, shown, asks]
      · simp only [step]
        rw [answer asks]
  | take => exact ⟨⟨by simp [step, shared], clock⟩, by simp [step, shared]⟩
  | expire =>
      unfold step
      dsimp only
      rw [shared, clock]
      split
      · exact ⟨⟨rfl, rfl⟩, rfl⟩
      · exact ⟨⟨shared, clock⟩, rfl⟩
  | publish published => exact ⟨⟨by simp [step, shared], clock⟩, rfl⟩
  | bench moves => exact ⟨⟨by simp [step, shared], clock⟩, rfl⟩

theorem step_stranger {w v : World ℓ β} (alike : Alike w v) {i : Event ℓ β}
    (stranger : ours e i = false) :
    Alike (step e w i).1 v ∧ (step e w i).2.filter (shown e) = [] := by
  cases i with
  | request l r =>
      have far : localRequest e l r = false := stranger
      exact ⟨serve_stranger alike far, by simp [step, shown, far]⟩
  | tick => cases stranger
  | take => cases stranger
  | expire => cases stranger
  | publish => cases stranger
  | bench => cases stranger

/-- Without the requests of other machines all that is shared is the same, and this machine and the
poll loop see the same, but for answers about the history, which may have been kept. -/
theorem strangers_change_nothing (w : World ℓ β) (events : List (Event ℓ β)) :
    let whole := Machine.run (step e) w events
    let alone := Machine.run (step e) w (events.filter (ours e))
    whole.1.shared = alone.1.shared ∧ whole.1.clock = alone.1.clock ∧
      whole.2.filter (shown e) = alone.2.filter (shown e) := by
  obtain ⟨⟨shared, clock⟩, seen⟩ := Machine.run_erase (step e) (ours e) (shown e) (R := Alike)
    (fun _ _ _ stranger alike => step_stranger alike stranger)
    (fun _ _ i _ alike => step_ours alike i) ⟨rfl, rfl⟩ events
  exact ⟨shared, clock, seen⟩

/-! ## Test alerts -/

/-- The message of a test alert that an answer accepts. -/
def accepted : Seen ℓ → List String
  | .answered _ r a =>
    if pathOf r.url = "/test-alert" ∧ a.code = 202 then [alertText (readText 4096 r.body)] else []
  | .taken _ => []

/-- What the poll loop takes. -/
def taken : Seen ℓ → List String
  | .answered _ _ _ => []
  | .taken alerts => alerts

/-- A message that may be sent on. -/
structure Sendable (msg : String) : Prop where
  said : msg ≠ ""
  short : msg.toList.length ≤ testAlertMaxChars
  plain : ∀ c ∈ msg.toList, HttpServer.isControl c = false

omit [DecidableEq ℓ] in
theorem mem_trim {s : String} {c : Char} (h : c ∈ (trim s).toList) : c ∈ s.toList := by
  unfold trim at h
  rw [String.toList_ofList, List.mem_reverse] at h
  have inner := List.mem_reverse.mp ((List.dropWhile_suffix _).subset h)
  exact (List.dropWhile_suffix _).subset inner

omit [DecidableEq ℓ] in
theorem sendable_alertText {body : String} (said : alertText body ≠ "") :
    Sendable (alertText body) where
  said := said
  short := by
    unfold alertText
    rw [String.toList_ofList]
    exact List.length_take_le _ _
  plain := by
    intro c hc
    unfold alertText at hc
    rw [String.toList_ofList] at hc
    have flat := mem_trim (List.mem_of_mem_take hc)
    rw [String.toList_ofList] at flat
    obtain ⟨d, -, rfl⟩ := List.mem_map.mp flat
    split
    · decide
    case isFalse plain => simpa using plain

/-- A test alert that is accepted waits in its place; one that is not is dropped. -/
theorem testAlert_cases (here : Bool) (peer : Option Ip) (isPost : Bool) (body : String)
    (s : Shared β) :
    (testAlert here peer isPost body s).2.code = 202 ∧ alertText body ≠ "" ∧
        s.testAlerts.length < testAlertMaxPending ∧
        (testAlert here peer isPost body s).1 =
          { s with testAlerts := s.testAlerts ++ [alertText body] } ∨
      (testAlert here peer isPost body s).2.code ≠ 202 ∧
        (testAlert here peer isPost body s).1 = s := by
  unfold testAlert
  split
  · exact .inr ⟨by simp [errorAnswer], rfl⟩
  split
  · exact .inr ⟨by simp [errorAnswer], rfl⟩
  dsimp only
  split
  · exact .inr ⟨by simp [errorAnswer], rfl⟩
  split
  · exact .inr ⟨by simp [errorAnswer], rfl⟩
  case isFalse said room => exact .inl ⟨rfl, said, Nat.lt_of_not_le room, rfl⟩

omit [DecidableEq ℓ] in
theorem benchPost_alerts (path : String) (here : Bool) (peer : Option Ip) (body : String) (now : ℤ)
    (s : Shared β) : (benchPost e path here peer body now s).1.testAlerts = s.testAlerts := by
  unfold benchPost
  dsimp only
  split
  · rfl
  split
  · split <;> rfl
  split
  · rfl
  split <;> rfl

omit [DecidableEq ℓ] in
theorem maintenancePost_alerts (path : String) (here : Bool) (peer : Option Ip) (body : String)
    (now : ℤ) (s : Shared β) :
    (maintenancePost e path here peer body now s).1.testAlerts = s.testAlerts := by
  unfold maintenancePost
  dsimp only
  split
  · rfl
  split
  · split <;> rfl
  split
  · split <;> rfl
  · rfl

/-- Only a request to `/test-alert` changes the queue. -/
theorem serve_elsewhere (w : World ℓ β) (l : ℓ) {r : Request} (other : pathOf r.url ≠ "/test-alert") :
    (serve e w l r).1.shared.testAlerts = w.shared.testAlerts := by
  unfold serve
  dsimp only
  rw [if_neg other]
  split
  · exact benchPost_alerts _ _ _ _ _ _
  split
  · exact maintenancePost_alerts _ _ _ _ _ _
  split
  · rfl
  split <;> rfl

/-- What an answer says of the queue: it is as it was, or the message that was accepted is at its
end, and there was room for it. -/
structure Queued (before after accepted : List String) : Prop where
  appended : after = before ++ accepted
  sendable : ∀ msg ∈ accepted, Sendable msg
  bounded : before.length ≤ testAlertMaxPending → after.length ≤ testAlertMaxPending

theorem serve_queued (w : World ℓ β) (l : ℓ) (r : Request) :
    Queued w.shared.testAlerts (serve e w l r).1.shared.testAlerts
      (accepted (.answered l r (serve e w l r).2)) := by
  by_cases path : pathOf r.url = "/test-alert"
  · unfold serve
    dsimp only
    rw [if_pos path]
    dsimp only
    obtain ⟨code, said, room, shared⟩ | ⟨code, shared⟩ := testAlert_cases (e.listenerIsLoopback l)
      r.peer (decide (r.method = .post)) (readText 4096 r.body) w.shared
    · rw [shared]
      exact {
        appended := by simp [accepted, path, code]
        sendable := by simpa [accepted, path, code] using sendable_alertText said
        bounded := fun _ => by
          rw [List.length_append, List.length_singleton]
          exact room }
    · rw [shared]
      exact {
        appended := by simp [accepted, code]
        sendable := by simp [accepted, code]
        bounded := id }
  · rw [serve_elsewhere w l path]
    exact {
      appended := by simp [accepted, path]
      sendable := by simp [accepted, path]
      bounded := id }

/-- What is accepted is taken or waits, in its order, and it may be sent on. -/
structure Delivered (w : World ℓ β) (log : List (Seen ℓ)) : Prop where
  once : log.flatMap accepted = log.flatMap taken ++ w.shared.testAlerts
  sendable : ∀ msg ∈ log.flatMap accepted, Sendable msg
  bounded : w.shared.testAlerts.length ≤ testAlertMaxPending

omit [DecidableEq ℓ] in
theorem delivered_quiet {w v : World ℓ β} {log : List (Seen ℓ)} (h : Delivered w log)
    (same : v.shared.testAlerts = w.shared.testAlerts) : Delivered v (log ++ []) := by
  rw [List.append_nil]
  exact {
    once := same ▸ h.once
    sendable := h.sendable
    bounded := same ▸ h.bounded }

theorem delivered_step {w : World ℓ β} {log : List (Seen ℓ)} (h : Delivered w log)
    (v : Event ℓ β) : Delivered (step e w v).1 (log ++ (step e w v).2) := by
  cases v with
  | tick ms => exact delivered_quiet h rfl
  | request l r =>
      have queued := serve_queued (e := e) w l r
      exact {
        once := by
          simp only [step, List.flatMap_append, List.flatMap_singleton]
          rw [queued.appended, h.once]
          simp [taken]
        sendable := by
          intro msg hmsg
          rw [List.flatMap_append, List.mem_append] at hmsg
          cases hmsg with
          | inl old => exact h.sendable msg old
          | inr new => exact queued.sendable msg (by simpa [step] using new)
        bounded := queued.bounded h.bounded }
  | take =>
      exact {
        once := by simp [step, accepted, taken, h.once]
        sendable := by simpa [step, accepted] using h.sendable
        bounded := Nat.zero_le _ }
  | expire =>
      unfold step
      dsimp only
      split
      · exact delivered_quiet h rfl
      · exact delivered_quiet h rfl
  | publish published => exact delivered_quiet h rfl
  | bench moves => exact delivered_quiet h rfl

/-- What is accepted is what the poll loop takes and what still waits, in the order of the requests
and each of it once; it is a message of at most three hundred characters without a control
character, and no more than five wait. -/
theorem alerts_once (b : β) (events : List (Event ℓ β)) :
    let r := Machine.run (step e) { shared := { bench := b } } events
    r.2.flatMap accepted = r.2.flatMap taken ++ r.1.shared.testAlerts ∧
      (∀ msg ∈ r.2.flatMap accepted, Sendable msg) ∧
      r.1.shared.testAlerts.length ≤ testAlertMaxPending := by
  have h := Machine.run_induction (step e) (fun _ w log => Delivered w log)
    (s := { shared := { bench := b } })
    { once := rfl, sendable := by simp, bounded := Nat.zero_le _ }
    (fun _ _ _ v h => delivered_step h v) events
  exact ⟨h.once, h.sendable, h.bounded⟩

/-! ## Answers about the history -/

/-- What the history says to a thread in a world. -/
def spoken (e : Env ℓ β ρ) (w : World ℓ β) (l : ℓ) (url : String) : ℕ × String :=
  (history e url w.clock (w.listener l).reader w.shared.published).2

variable {w₀ : World ℓ β}

/-- An answer was given in the run so far, at a time. -/
def GivenAt (e : Env ℓ β ρ) (w₀ : World ℓ β) (events : List (Event ℓ β)) (l : ℓ) (url : String)
    (t : ℤ) (answer : ℕ × String) : Prop :=
  ∃ before, before <+: events ∧ (Machine.run (step e) w₀ before).1.clock = t ∧
    answer = spoken e (Machine.run (step e) w₀ before).1 l url

theorem GivenAt.later {events : List (Event ℓ β)} {l : ℓ} {url : String} {t : ℤ}
    {answer : ℕ × String} (h : GivenAt e w₀ events l url t answer) (v : Event ℓ β) :
    GivenAt e w₀ (events ++ [v]) l url t answer := by
  obtain ⟨before, pre, clock, same⟩ := h
  exact ⟨before, pre.trans (List.prefix_append _ _), clock, same⟩

/-- What a thread keeps was given in the run so far, and there is not too much of it. -/
structure Kept (e : Env ℓ β ρ) (w₀ : World ℓ β) (events : List (Event ℓ β)) (now : ℤ) (l : ℓ)
    (k : Listener) : Prop where
  given : ∀ url hit, (url, hit) ∈ k.cache →
    hit.1 ≤ now ∧ GivenAt e w₀ events l url hit.1 hit.2
  bounded : k.cache.length ≤ cacheMax

theorem Kept.later {events : List (Event ℓ β)} {now later : ℤ} {l : ℓ} {k : Listener}
    (h : Kept e w₀ events now l k) (v : Event ℓ β) (le : now ≤ later) :
    Kept e w₀ (events ++ [v]) later l k where
  given url hit hk := ⟨(h.given url hit hk).1.trans le, (h.given url hit hk).2.later v⟩
  bounded := h.bounded

omit [DecidableEq ℓ] in
/-- An answer is one that is kept and not too old, or it is given now and kept. -/
theorem ask_cases (e : Env ℓ β ρ) (url : String) (clock : ℤ) (p : Published) (k : Listener) :
    (∃ hit, (url, hit) ∈ k.cache ∧ clock - hit.1 < cacheTtl ∧ ask e url clock p k = (k, hit.2)) ∨
      (ask e url clock p k).2 = (history e url clock k.reader p).2 ∧
        (ask e url clock p k).1.cache.length ≤ cacheMax ∧
        ∀ q ∈ (ask e url clock p k).1.cache,
          q = (url, clock, (history e url clock k.reader p).2) ∨ q ∈ k.cache := by
  unfold ask
  split
  case h_1 hit found =>
    obtain ⟨lookup, young⟩ := Option.filter_eq_some_iff.mp found
    obtain ⟨l₁, l₂, parts, -⟩ := List.lookup_eq_some_iff.mp lookup
    exact .inl ⟨hit, by simp [parts], by simpa using young, rfl⟩
  case h_2 =>
    refine .inr ⟨rfl, ?_, ?_⟩
    · have size : (if cacheMax ≤ k.cache.length then [] else k.cache).length < cacheMax := by
        split
        · decide
        · omega
      exact Nat.succ_le_of_lt (Nat.lt_of_le_of_lt (List.length_filter_le _ _) size)
    · intro q hq
      cases List.mem_cons.mp hq with
      | inl now => exact .inl now
      | inr old =>
          have stays := List.mem_of_mem_filter old
          split at stays
          · cases stays
          · exact .inr stays

/-- All threads keep what was given. -/
def AllKept (e : Env ℓ β ρ) (w₀ : World ℓ β) (events : List (Event ℓ β)) (w : World ℓ β) : Prop :=
  ∀ l, Kept e w₀ events w.clock l (w.listener l)

theorem kept_serve {events : List (Event ℓ β)}
    (h : AllKept e w₀ events (Machine.run (step e) w₀ events).1) (l : ℓ) (r : Request) :
    AllKept e w₀ (events ++ [.request l r])
      (serve e (Machine.run (step e) w₀ events).1 l r).1 := by
  have given : ∀ url, GivenAt e w₀ (events ++ [.request l r]) l url
      (Machine.run (step e) w₀ events).1.clock
      (spoken e (Machine.run (step e) w₀ events).1 l url) :=
    fun url => ⟨events, List.prefix_append _ _, rfl, rfl⟩
  generalize Machine.run (step e) w₀ events = run at h given
  have later : AllKept e w₀ (events ++ [.request l r]) run.1 :=
    fun k => (h k).later _ (le_refl _)
  unfold serve
  dsimp only
  split
  · exact later
  split
  · exact later
  split
  · exact later
  split
  · intro k
    dsimp only
    by_cases here : k = l
    · subst here
      rw [Function.update_self]
      obtain ⟨hit, -, -, same⟩ | ⟨-, bounded, stays⟩ :=
        ask_cases e r.url run.1.clock run.1.shared.published (run.1.listener k)
      · rw [same]
        exact later k
      · exact {
          given := by
            intro url hit hk
            cases stays _ hk with
            | inl now =>
                cases now
                exact ⟨le_refl _, given r.url⟩
            | inr old => exact (later k).given url hit old
          bounded := bounded }
    · rw [Function.update_of_ne here]
      exact later k
  split
  · exact later
  · exact later

theorem kept_step {events : List (Event ℓ β)}
    (h : AllKept e w₀ events (Machine.run (step e) w₀ events).1) (v : Event ℓ β) :
    AllKept e w₀ (events ++ [v]) (Machine.run (step e) w₀ (events ++ [v])).1 := by
  rw [Machine.run_concat]
  cases v with
  | request l r => exact kept_serve h l r
  | tick ms => exact fun l => (h l).later _ (by simp [step])
  | take => exact fun l => (h l).later _ (le_refl _)
  | expire =>
      unfold step
      dsimp only
      split
      · exact fun l => (h l).later _ (le_refl _)
      · exact fun l => (h l).later _ (le_refl _)
  | publish published => exact fun l => (h l).later _ (le_refl _)
  | bench moves => exact fun l => (h l).later _ (le_refl _)

theorem kept_run (s : Shared β) (events : List (Event ℓ β)) :
    AllKept e { shared := s } events (Machine.run (step e) { shared := s } events).1 := by
  induction events using List.reverseRecOn with
  | nil => exact fun l => { given := by simp, bounded := Nat.zero_le _ }
  | append_singleton events v ih => exact kept_step ih v

theorem serve_history (w : World ℓ β) (l : ℓ) {r : Request} (asks : AsksHistory r) :
    (serve e w l r).2 =
      { code := (ask e r.url w.clock w.shared.published (w.listener l)).2.1
        body := .text (ask e r.url w.clock w.shared.published (w.listener l)).2.2 } := by
  have path : pathOf r.url ≠ "/test-alert" := by
    intro alert
    have history := asks.2
    rw [alert] at history
    exact absurd history (by decide)
  have reads : r.method ≠ .post := by
    rcases asks.1 with get | head
    · simp [get]
    · simp [head]
  unfold AsksHistory at asks
  unfold serve
  dsimp only
  rw [if_neg path, if_neg fun h => reads h.1, if_neg fun h => reads h.1, if_pos asks]

/-- What a thread answers to a question about the history is what the history says to it in a state
of the run less than two seconds before, and it never keeps more than sixty-four answers. -/
theorem history_is_fresh (s : Shared β) (events : List (Event ℓ β)) (l : ℓ) (r : Request)
    (asks : AsksHistory r) :
    let w := (Machine.run (step e) { shared := s } events).1
    (∃ before, before <+: events ∧
      let v := (Machine.run (step e) { shared := s } before).1
      v.clock ≤ w.clock ∧ w.clock - v.clock < cacheTtl ∧
        (serve e w l r).2 =
          { code := (spoken e v l r.url).1, body := .text (spoken e v l r.url).2 }) ∧
      (w.listener l).cache.length ≤ cacheMax := by
  intro w
  have h : Kept e { shared := s } events w.clock l (w.listener l) := kept_run s events l
  refine ⟨?_, h.bounded⟩
  rw [serve_history w l asks]
  obtain ⟨hit, kept, young, same⟩ | ⟨fresh, -⟩ :=
    ask_cases e r.url w.clock w.shared.published (w.listener l)
  · obtain ⟨le, before, pre, clock, given⟩ := h.given r.url hit kept
    refine ⟨before, pre, ?_⟩
    dsimp only
    rw [clock, same, ← given]
    exact ⟨le, young, rfl⟩
  · refine ⟨events, List.prefix_refl _, le_refl _, ?_, ?_⟩
    · rw [Int.sub_self]
      decide
    · rw [fresh]
      rfl

/-- One address, and a history that says when it was asked. -/
def oneListener : HttpServer.Env Unit Unit Unit where
  listenerIsLoopback _ := true
  opens _ := none
  history _ _ now := (200, if now < 1 then "early" else "late")
  benchRequest _ := .ok ()
  accuracyPair _ := ("", "")
  maintenanceRequest _ := .ok ("", 0)
  bench b _ _ := (b, 202, .doc [])
  version := "1"

theorem early_answer_is_kept :
    let r : Request := { peer := none, method := .get, url := "/series?range=1h" }
    let w := (Machine.run (step oneListener) { shared := { bench := () } }
      [.request () r, .tick 1500]).1
    (serve oneListener w () r).2 = { code := 200, body := .text "early" } ∧
      (w.listener ()).cache.length ≤ cacheMax :=
  ⟨by decide, (history_is_fresh { bench := () } [.request () _, .tick 1500] ()
    { peer := none, method := .get, url := "/series?range=1h" } (by decide)).2⟩

end Lss.Analysis.LocalRequests
