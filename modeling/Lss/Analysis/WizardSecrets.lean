import Lss.Library.Trail
import Lss.Model.SetupWizard

/-!
# Keys and waived checks stay with their engine

What the wizard holds between two tests is an address, a key and whether the certificate is
checked. Every round moves what is held in one of seven ways, and only the change of the address
can take a key or a waived check to an engine it was not given for.
-/

set_option autoImplicit false

namespace Lss.Analysis.WizardSecrets

open Lss.Library Lss.Model.Setup

/-! ## What belongs to an address -/

section Belongs

variable (o : Opts) (cfg : Option Config)

/-- A key was given for an address: on the command line, in the file for this engine, or by the
person while the address was the current one. -/
def KeyBelongs (before : List Event) (url key : String) : Prop :=
  key = "" ∨ o.apiKey = some key ∨
    (∃ cur ∈ configuredEngine cfg, cur.url = url ∧ cur.key = key) ∨
    .keyTyped url key ∈ before ∨ .keyKept url key ∈ before

/-- The certificate of an address is checked, or it is not because the file says so of every
engine or of this one, or because the person said so while the address was the current one. -/
def CheckBelongs (before : List Event) (url : String) (verify : Bool) : Prop :=
  verify = false →
    (∃ c ∈ cfg, c.tlsVerify = false) ∨
    (∃ c ∈ cfg, ∃ e ∈ c.engines.head?, bareUrl e.url = bareUrl url ∧ e.tlsVerify = some false) ∨
    .waived url ∈ before

def Belongs (before : List Event) (url key : String) (verify : Bool) : Prop :=
  KeyBelongs o cfg before url key ∧ CheckBelongs cfg before url verify

/-- What is sent to an address in a live test belongs to it. -/
def TestBelongs (before : List Event) (e : Event) : Prop :=
  ∀ url key verify, e = .tested url key verify → Belongs o cfg before url key verify

def choices : Pick → List EngineChoice
  | .one c => [c]
  | .all cs => cs
  | .auto => []
  | .quit => []

/-- Every address that is tested or returned goes with a key and a check of its own. -/
def KeepsSecrets (pick : Pick) (trail : List Event) : Prop :=
  EachAfter (TestBelongs o cfg) trail ∧
    ∀ c ∈ choices pick, Belongs o cfg trail c.url c.apiKey (c.tlsVerify ≠ some false)

/-- A change of the address takes along no key that was not given for the new address, unless the
person is asked about it and answers, and no waived check. -/
def EditHarmless (before : List Event) (e : Event) : Prop :=
  ∀ x, e = .edited x →
    (x.answered = false → KeyBelongs o cfg before x.newUrl x.key) ∧
      CheckBelongs cfg before x.newUrl x.verify

variable {o cfg}

theorem KeyBelongs.mono {before more : List Event} {url key : String}
    (h : KeyBelongs o cfg before url key) : KeyBelongs o cfg (before ++ more) url key := by
  rcases h with h | h | h | h | h
  · exact .inl h
  · exact .inr (.inl h)
  · exact .inr (.inr (.inl h))
  · exact .inr (.inr (.inr (.inl (List.mem_append_left _ h))))
  · exact .inr (.inr (.inr (.inr (List.mem_append_left _ h))))

theorem CheckBelongs.mono {before more : List Event} {url : String} {verify : Bool}
    (h : CheckBelongs cfg before url verify) : CheckBelongs cfg (before ++ more) url verify := by
  intro hv
  rcases h hv with h | h | h
  · exact .inl h
  · exact .inr (.inl h)
  · exact .inr (.inr (List.mem_append_left _ h))

/-- An event that gives nothing changes nothing. -/
theorem keyBelongs_concat {before : List Event} {e : Event} {url key : String}
    (htyped : e ≠ .keyTyped url key) (hkept : e ≠ .keyKept url key) :
    KeyBelongs o cfg (before ++ [e]) url key ↔ KeyBelongs o cfg before url key := by
  unfold KeyBelongs
  rw [List.mem_append, List.mem_append, List.mem_singleton, List.mem_singleton,
    or_iff_left htyped.symm, or_iff_left hkept.symm]

theorem checkBelongs_concat {before : List Event} {e : Event} {url : String} {verify : Bool}
    (h : e ≠ .waived url) :
    CheckBelongs cfg (before ++ [e]) url verify ↔ CheckBelongs cfg before url verify := by
  unfold CheckBelongs
  rw [List.mem_append, List.mem_singleton, or_iff_left h.symm]

end Belongs

/-! ## What is held -/

/-- The address, the key and the check between two questions. -/
structure Held where
  url : String
  key : String
  verify : Bool
  trail : List Event

namespace Held

def test (h : Held) : Held := { h with trail := h.trail ++ [.tested h.url h.key h.verify] }

/-- The address is changed; the rest is taken along. -/
def edit (h : Held) (url : String) (answered : Bool) : Held :=
  { h with url := url, trail := h.trail ++ [.edited ⟨h.key, h.verify, url, answered⟩] }

def give (h : Held) (key : String) : Held :=
  { h with key := key, trail := h.trail ++ [.keyTyped h.url key] }

def confirm (h : Held) : Held := { h with trail := h.trail ++ [.keyKept h.url h.key] }

def drop (h : Held) : Held := { h with key := "" }

def waive (h : Held) : Held :=
  { h with verify := false, trail := h.trail ++ [.waived h.url] }

/-- What one round may do after its test. -/
inductive Moves (h : Held) : Held → Prop
  | stays : Moves h h
  | waived : Moves h h.waive
  | typed (key : String) : Moves h (h.give key)
  | edited (url : String) : Moves h (h.edit url false)
  | dropped (url : String) : Moves h (h.edit url true).drop
  | replaced (url key : String) : Moves h ((h.edit url true).give key)
  | confirmed (url : String) : Moves h (h.edit url true).confirm

variable (o : Opts) (cfg : Option Config)

/-- What is held belongs to the address. -/
def Fits (h : Held) : Prop := Belongs o cfg h.trail h.url h.key h.verify

/-- So far every test was right, and so is what is held, exactly where no change of the address
did harm. -/
def Settled (h : Held) : Prop :=
  (EachAfter (TestBelongs o cfg) h.trail ∧ h.Fits o cfg) ↔
    EachAfter (EditHarmless o cfg) h.trail

variable {o cfg}

theorem tests_concat {trail : List Event} {e : Event} (h : ∀ url key verify,
    e ≠ .tested url key verify) :
    EachAfter (TestBelongs o cfg) (trail ++ [e]) ↔ EachAfter (TestBelongs o cfg) trail := by
  rw [eachAfter_concat, and_iff_left]
  intro url key verify he
  exact absurd he (h url key verify)

theorem edits_concat {trail : List Event} {e : Event} (h : ∀ x, e ≠ .edited x) :
    EachAfter (EditHarmless o cfg) (trail ++ [e]) ↔ EachAfter (EditHarmless o cfg) trail := by
  rw [eachAfter_concat, and_iff_left]
  intro x hx
  exact absurd hx (h x)

theorem tests_test (h : Held) : EachAfter (TestBelongs o cfg) h.test.trail ↔
    EachAfter (TestBelongs o cfg) h.trail ∧ h.Fits o cfg := by
  show EachAfter (TestBelongs o cfg) (h.trail ++ [.tested h.url h.key h.verify]) ↔ _
  rw [eachAfter_concat]
  apply and_congr_right
  intro _
  constructor
  · intro last
    exact last _ _ _ rfl
  · rintro fits url key verify he
    cases he
    exact fits

theorem edits_test (h : Held) : EachAfter (EditHarmless o cfg) h.test.trail ↔
    EachAfter (EditHarmless o cfg) h.trail := edits_concat fun _ => nofun

theorem fits_test (h : Held) : h.test.Fits o cfg ↔ h.Fits o cfg :=
  and_congr (keyBelongs_concat nofun nofun) (checkBelongs_concat nofun)

/-- A test that is right shows that what is held fits. -/
theorem Settled.test {h : Held} (hs : h.Settled o cfg) :
    EachAfter (TestBelongs o cfg) h.test.trail ↔ EachAfter (EditHarmless o cfg) h.test.trail := by
  rw [tests_test, edits_test]
  exact hs

/-- Right after a change of the address, what is held fits where the change did no harm. -/
theorem edits_edit (h : Held) (url : String) (answered : Bool) :
    EachAfter (EditHarmless o cfg) (h.edit url answered).trail ↔
      EachAfter (EditHarmless o cfg) h.trail ∧
        (answered = false → KeyBelongs o cfg h.trail url h.key) ∧
        CheckBelongs cfg h.trail url h.verify := by
  show EachAfter (EditHarmless o cfg) (h.trail ++ [.edited ⟨h.key, h.verify, url, answered⟩]) ↔ _
  rw [eachAfter_concat]
  apply and_congr_right
  intro _
  constructor
  · intro last
    exact last _ rfl
  · rintro harmless x hx
    cases hx
    exact harmless

theorem tests_edit (h : Held) (url : String) (answered : Bool) :
    EachAfter (TestBelongs o cfg) (h.edit url answered).trail ↔
      EachAfter (TestBelongs o cfg) h.trail := tests_concat fun _ _ _ => nofun

/-- A key given for the address belongs to it. -/
theorem fits_give (h : Held) (key : String) :
    (h.give key).Fits o cfg ↔ CheckBelongs cfg h.trail h.url h.verify := by
  have given : KeyBelongs o cfg (h.give key).trail h.url key :=
    .inr (.inr (.inr (.inl (List.mem_append_right _ (List.mem_singleton_self _)))))
  have check : CheckBelongs cfg (h.give key).trail h.url h.verify ↔
      CheckBelongs cfg h.trail h.url h.verify := checkBelongs_concat nofun
  exact (and_iff_right given).trans check

theorem fits_confirm (h : Held) :
    h.confirm.Fits o cfg ↔ CheckBelongs cfg h.trail h.url h.verify := by
  have kept : KeyBelongs o cfg h.confirm.trail h.url h.key :=
    .inr (.inr (.inr (.inr (List.mem_append_right _ (List.mem_singleton_self _)))))
  have check : CheckBelongs cfg h.confirm.trail h.url h.verify ↔
      CheckBelongs cfg h.trail h.url h.verify := checkBelongs_concat nofun
  exact (and_iff_right kept).trans check

theorem fits_drop (h : Held) : h.drop.Fits o cfg ↔ CheckBelongs cfg h.trail h.url h.verify :=
  and_iff_right (.inl rfl)

theorem check_edit (h : Held) (url : String) (answered : Bool) :
    CheckBelongs cfg (h.edit url answered).trail (h.edit url answered).url
      (h.edit url answered).verify ↔ CheckBelongs cfg h.trail url h.verify :=
  checkBelongs_concat nofun

/-- Where the person answers for the key of the new address, only the check matters. -/
theorem settled_of_answered {t h' : Held} {url : String}
    (right : EachAfter (TestBelongs o cfg) t.trail ↔ EachAfter (EditHarmless o cfg) t.trail)
    (tests : EachAfter (TestBelongs o cfg) h'.trail ↔
      EachAfter (TestBelongs o cfg) (t.edit url true).trail)
    (edits : EachAfter (EditHarmless o cfg) h'.trail ↔
      EachAfter (EditHarmless o cfg) (t.edit url true).trail)
    (fits : h'.Fits o cfg ↔ CheckBelongs cfg (t.edit url true).trail (t.edit url true).url
      (t.edit url true).verify) : h'.Settled o cfg := by
  unfold Settled
  rw [tests, edits, tests_edit, edits_edit, ← right, fits, check_edit,
    and_iff_right (nofun : true = false → _)]

/-- One round keeps what is known. -/
theorem Moves.settled {h h' : Held} (hm : Moves h.test h') (hs : h.Settled o cfg) :
    h'.Settled o cfg := by
  have right := hs.test
  -- what was just tested fits, where the test was right
  have fits : EachAfter (TestBelongs o cfg) h.test.trail → h.test.Fits o cfg := by
    intro tests
    rw [fits_test]
    exact ((tests_test h).mp tests).2
  generalize h.test = t at hm right fits
  cases hm with
  | stays =>
      unfold Settled
      rw [and_iff_left_of_imp fits, right]
  | waived =>
      have tests : EachAfter (TestBelongs o cfg) t.waive.trail ↔
          EachAfter (TestBelongs o cfg) t.trail := tests_concat fun _ _ _ => nofun
      have edits : EachAfter (EditHarmless o cfg) t.waive.trail ↔
          EachAfter (EditHarmless o cfg) t.trail := edits_concat fun _ => nofun
      unfold Settled
      rw [tests, edits, ← right, and_iff_left_of_imp]
      intro h
      refine ⟨(fits h).1.mono, fun _ => ?_⟩
      exact .inr (.inr (List.mem_append_right _ (List.mem_singleton_self _)))
  | typed key =>
      have tests : EachAfter (TestBelongs o cfg) (t.give key).trail ↔
          EachAfter (TestBelongs o cfg) t.trail := tests_concat fun _ _ _ => nofun
      have edits : EachAfter (EditHarmless o cfg) (t.give key).trail ↔
          EachAfter (EditHarmless o cfg) t.trail := edits_concat fun _ => nofun
      unfold Settled
      rw [tests, edits, ← right, fits_give, and_iff_left_of_imp]
      exact fun h => (fits h).2
  | edited url =>
      have same : (t.edit url false).Fits o cfg ↔ KeyBelongs o cfg t.trail url t.key ∧
          CheckBelongs cfg t.trail url t.verify :=
        and_congr (keyBelongs_concat nofun nofun) (check_edit t url false)
      unfold Settled
      rw [tests_edit, edits_edit, ← right, same, imp_iff_right rfl]
  | dropped url => exact settled_of_answered right Iff.rfl Iff.rfl (fits_drop _)
  | replaced url key =>
      exact settled_of_answered right (tests_concat fun _ _ _ => nofun)
        (edits_concat fun _ => nofun) (fits_give _ key)
  | confirmed url =>
      exact settled_of_answered right (tests_concat fun _ _ _ => nofun)
        (edits_concat fun _ => nofun) (fits_confirm _)

end Held

/-! ## The lines that are left -/

/-- How often someone can still be asked. -/
def patience (io : Io) : ℕ := io.lines.length + if io.interactive then 1 else 0

theorem ask_patience {io : Io} (h : io.interactive) (default : String) :
    patience (io.ask default).2 < patience io := by
  obtain ⟨interactive, lines⟩ := io
  cases h
  cases lines with
  | nil => exact Nat.zero_lt_one
  | cons line lines => exact Nat.lt_succ_self (lines.length + 1)

theorem ask_patience_le (io : Io) (default : String) :
    patience (io.ask default).2 ≤ patience io := by
  cases h : io.interactive with
  | true => exact (ask_patience h default).le
  | false =>
      unfold Io.ask
      rw [h]
      exact le_rfl

theorem readUntil_patience {α : Type} (default : String) (use : String → Option α) (otherwise : α)
    (lines : List String) :
    patience (Io.readUntil default use otherwise lines).2 ≤ lines.length + 1 := by
  induction lines with
  | nil => exact Nat.zero_le _
  | cons line lines ih =>
      unfold Io.readUntil
      split
      · exact Nat.le_succ _
      · exact ih.trans (Nat.le_succ _)

theorem askUntil_patience {α : Type} (default : String) (use : String → Option α) (otherwise : α)
    (io : Io) : patience (io.askUntil default use otherwise).2 ≤ patience io := by
  unfold Io.askUntil
  split
  · rename_i h
    have all : patience io = io.lines.length + 1 := by
      unfold patience
      rw [if_pos h]
    rw [all]
    exact readUntil_patience default use otherwise io.lines
  · exact le_rfl

theorem askAddress_patience (io : Io) (first : String) :
    patience (io.askAddress first).2 ≤ patience io := by
  unfold Io.askAddress
  split
  · exact le_rfl
  · exact askUntil_patience _ _ _ io

theorem askKind_patience (io : Io) (current : Option Lss.Model.EngineKind) :
    patience (io.askKind current).2 ≤ patience io := by
  unfold Io.askKind
  split
  · exact le_rfl
  · exact askUntil_patience _ _ _ io

/-- An answer that is not the default was read. -/
theorem interactive_of_answer {io : Io} {default : String} (h : (io.ask default).1 ≠ default) :
    (io.ask default).2.interactive = true := by
  obtain ⟨interactive, lines⟩ := io
  cases interactive with
  | false => exact absurd rfl h
  | true =>
      cases lines with
      | nil => exact absurd rfl h
      | cons line lines => rfl

/-! ## The rounds -/

def held (s : Session) : Held := ⟨s.url, s.key, s.tls.verify, s.trail⟩

/-- What may come of something held: a move with fewer lines left, or the end. -/
def Outcome (h : Held) (left : ℕ) (t : Session.Turn) : Prop :=
  match t.2 with
  | none => h.Moves (held t.1) ∧ patience t.1.io < left
  | some pick => held t.1 = h ∧ (pick = .quit ∨ pick = .one t.1.choice)

/-- A new address takes no more lines than the menu left. -/
theorem edit_patience (io : Io) (url : String) (kind : Option Lss.Model.EngineKind) :
    patience (((io.ask url).2.askAddress (io.ask url).1).2.askKind kind).2 ≤ patience io :=
  (askKind_patience _ kind).trans ((askAddress_patience _ _).trans (ask_patience_le io url))

theorem held_edited (s : Session) (io : Io) (url : String) (kind : Option Lss.Model.EngineKind) :
    (held s).Moves (held { s with
      io := io, url := url, kind := kind,
      trail := s.trail ++ [.edited ⟨s.key, s.tls.verify, url, false⟩] }) :=
  .edited url

theorem certificateMenu_outcome (env : Env) {s : Session} (h : s.io.interactive) :
    Outcome (held s) (patience s.io) (s.certificateMenu env) := by
  have asked := ask_patience h "c"
  unfold Session.certificateMenu
  dsimp only
  split
  · -- a file of authorities
    have again := (ask_patience_le (s.io.ask "c").2 "").trans_lt asked
    split
    · exact ⟨.stays, again⟩
    · split
      · exact ⟨.stays, again⟩
      · exact ⟨.stays, again⟩
  · exact ⟨.waived, asked⟩
  · exact ⟨rfl, .inl rfl⟩
  · exact ⟨rfl, .inl rfl⟩
  · exact ⟨rfl, .inr rfl⟩
  · exact ⟨rfl, .inr rfl⟩
  · exact ⟨held_edited s _ _ _, (edit_patience _ s.url s.kind).trans_lt asked⟩
  · exact ⟨held_edited s _ _ _, (edit_patience _ s.url s.kind).trans_lt asked⟩
  · exact ⟨.stays, asked⟩

/-- The key of a new address is taken away, typed, kept on purpose, or nobody is there to ask. -/
theorem editKey_moves (s : Session) (io : Io) (url : String) (kind : Option Lss.Model.EngineKind) :
    (held s).Moves (held (Session.editKey { s with
      io := io, url := url, kind := kind,
      trail := s.trail ++ [.edited ⟨s.key, s.tls.verify, url, (io.ask "").2.interactive⟩] })) := by
  unfold Session.editKey
  dsimp only
  have spoken : (io.ask "").1 ≠ "" → (io.ask "").2.interactive = true := interactive_of_answer
  split
  · rename_i minus
    rw [spoken (by rw [minus]; decide)]
    exact .dropped url
  · split
    · rename_i answer
      rw [spoken answer]
      exact .replaced url _
    · split
      · rename_i read
        rw [read]
        exact .confirmed url
      · rename_i unread
        rw [Bool.not_eq_true] at unread
        rw [unread]
        exact .edited url

theorem editKey_patience (s : Session) : patience s.editKey.io ≤ patience s.io := by
  have asked := ask_patience_le s.io ""
  unfold Session.editKey
  dsimp only
  split
  · exact asked
  · split
    · exact asked
    · split
      · exact asked
      · exact asked

theorem retryMenu_outcome {s : Session} (h : s.io.interactive) :
    Outcome (held s) (patience s.io) s.retryMenu := by
  have asked := ask_patience h "r"
  have edit := (edit_patience (s.io.ask "r").2 s.url s.kind).trans_lt asked
  unfold Session.retryMenu
  dsimp only
  split
  · exact ⟨rfl, .inl rfl⟩
  · exact ⟨rfl, .inl rfl⟩
  · exact ⟨rfl, .inr rfl⟩
  · exact ⟨rfl, .inr rfl⟩
  · exact ⟨editKey_moves s _ _ _, (editKey_patience _).trans_lt edit⟩
  · exact ⟨editKey_moves s _ _ _, (editKey_patience _).trans_lt edit⟩
  · exact ⟨.stays, asked⟩

/-- Nobody is left to ask, so the default is taken. -/
theorem retryMenu_silent {s : Session} (h : s.io.interactive = false) :
    s.retryMenu = (s, none) := by
  have silent : s.io.ask "r" = ("r", s.io) := by
    unfold Io.ask
    rw [h]
    rfl
  unfold Session.retryMenu
  rw [silent]
  rfl

theorem refusedMenu_outcome {s : Session} (h : s.io.interactive) :
    Outcome (held s) (patience s.io) s.refusedMenu := by
  have asked := ask_patience h ""
  unfold Session.refusedMenu
  dsimp only
  split
  · exact ⟨.typed _, asked⟩
  · cases left : (s.io.ask "").2.interactive with
    | false =>
        rw [retryMenu_silent (s := { s with io := (s.io.ask "").2 }) left]
        exact ⟨.stays, asked⟩
    | true =>
        have menu := retryMenu_outcome (s := { s with io := (s.io.ask "").2 }) left
        unfold Outcome at menu ⊢
        split at menu
        · exact ⟨menu.1, menu.2.trans asked⟩
        · exact menu

/-- Every round tests what is held, and then moves it or ends. -/
theorem turn_outcome (env : Env) (s : Session) :
    Outcome (held s).test (patience s.io) (s.turn env) := by
  unfold Session.turn
  dsimp only
  split
  · exact ⟨rfl, .inr rfl⟩
  · split
    · refine ⟨rfl, ?_⟩
      cases s.typed with
      | true => exact .inl rfl
      | false => exact .inr rfl
    · rename_i interactive
      rw [not_not] at interactive
      split
      · exact certificateMenu_outcome env interactive
      · split
        · exact refusedMenu_outcome interactive
        · exact retryMenu_outcome interactive

/-! ## The whole run -/

section Run

variable {o : Opts} {cfg : Option Config}

/-- At the end, every use was right exactly where no change of the address did harm. -/
theorem keeps_iff {h : Held} (hs : h.Settled o cfg) {s : Session} (last : held s = h.test)
    {pick : Pick} (hpick : pick = .quit ∨ pick = .one s.choice) :
    KeepsSecrets o cfg pick s.trail ↔ EachAfter (EditHarmless o cfg) s.trail := by
  have trail : s.trail = h.test.trail := congrArg Held.trail last
  have settled := hs.test
  rw [← trail] at settled
  unfold KeepsSecrets
  rw [settled, and_iff_left_of_imp]
  intro harmless c hc
  rcases hpick with rfl | rfl
  · cases hc
  · obtain rfl := List.mem_singleton.mp hc
    have fits : h.test.Fits o cfg := by
      rw [Held.fits_test]
      rw [← settled, trail] at harmless
      exact ((Held.tests_test h).mp harmless).2
    rw [← last] at fits
    have verify : decide (s.choice.tlsVerify ≠ some false) = s.tls.verify := by
      unfold Session.choice
      cases s.tls.verify with
      | true => rfl
      | false => rfl
    rw [verify]
    exact fits

/-- The rounds come to an end, and what is known at their beginning is known then. -/
theorem liveTest_keeps (env : Env) {fuel : ℕ} {s : Session} (hf : patience s.io < fuel)
    (hs : (held s).Settled o cfg) :
    ∃ pick trail, Session.liveTest env fuel s = some (pick, trail) ∧
      (KeepsSecrets o cfg pick trail ↔ EachAfter (EditHarmless o cfg) trail) := by
  induction fuel generalizing s with
  | zero => exact absurd hf (Nat.not_lt_zero _)
  | succ fuel ih =>
      have round := turn_outcome env s
      unfold Session.liveTest
      generalize s.turn env = outcome at round ⊢
      obtain ⟨t, pick⟩ := outcome
      cases pick with
      | none => exact ih (round.2.trans_le (Nat.le_of_lt_succ hf)) (round.1.settled hs)
      | some pick => exact ⟨pick, t.trail, rfl, keeps_iff hs round.1 round.2⟩

/-- Where the address comes from: the key is that of the command line, or it was typed for the
address. -/
def Begun (o : Opts) (s : Session) : Prop :=
  (s.key = o.apiKey.getD "" ∧ s.trail = []) ∨ s.trail = [.keyTyped s.url s.key]

/-- An end without a choice, or one collector for each of the engines found. -/
def Done (done : Pick × List Event) : Prop :=
  done = (.quit, []) ∨ done = (.auto, []) ∨ ∃ found, done = allOf found

theorem askEngine_begun (io : Io) (url : String) (kind : Option Lss.Model.EngineKind) :
    Begun o (askEngine io url kind (o.apiKey.getD "")) := by
  unfold askEngine
  dsimp only
  split
  · exact .inr rfl
  · exact .inl ⟨rfl, rfl⟩

theorem noneFound_begun (current : Option Configured) (kind : Option Lss.Model.EngineKind)
    (io : Io) :
    Sum.elim (Begun o) (· = Pick.auto) (noneFound current kind (o.apiKey.getD "") io) := by
  unfold noneFound
  dsimp only
  generalize askElsewhere current io = asked
  split
  · rfl
  · split
    · exact askEngine_begun _ _ kind
    · exact .inl ⟨rfl, rfl⟩

theorem someFound_begun (found : List Found) (current : Option Configured)
    (kind : Option Lss.Model.EngineKind) (io : Io) :
    Sum.elim (Begun o) Done (someFound found current kind (o.apiKey.getD "") io) := by
  unfold someFound
  dsimp only
  generalize Io.askUntil _ _ _ _ = answered
  obtain ⟨answer, io⟩ := answered
  cases answer with
  | quit => exact .inl rfl
  | configured url => exact .inl ⟨rfl, rfl⟩
  | all => exact .inr (.inr ⟨found, rfl⟩)
  | elsewhere => exact askEngine_begun _ _ kind
  | found f => exact .inl ⟨rfl, rfl⟩

theorem findServer_begun (current : Option Configured) (env : Env) (io : Io) :
    Sum.elim (Begun o) Done (findServer o current env io) := by
  unfold findServer
  dsimp only
  split
  · exact .inl ⟨rfl, rfl⟩
  · split
    · exact .inl rfl
    · split
      · have begun := noneFound_begun (o := o) current
          ((o.kind.filter fun k => k ≠ "auto").bind parseKind) io
        generalize noneFound current _ _ io = found at begun ⊢
        cases found with
        | inl s => exact begun
        | inr pick =>
            obtain rfl : pick = .auto := begun
            exact .inr (.inl rfl)
      · split
        · exact .inr (.inr ⟨env.scan, rfl⟩)
        · exact someFound_begun env.scan current _ io

variable (cfg) in
/-- The check is left out only where the file says so, of every engine or of this one. -/
theorem savedTls_belongs (home url : String) :
    CheckBelongs cfg [] url (savedTls home cfg url).verify := by
  intro unchecked
  unfold savedTls at unchecked
  cases cfg with
  | none => cases unchecked
  | some c =>
      dsimp only at unchecked
      split at unchecked
      · rename_i e he
        obtain ⟨first, same⟩ := Option.filter_eq_some_iff.mp he
        cases own : e.tlsVerify with
        | none =>
            rw [own] at unchecked
            exact .inl ⟨c, rfl, unchecked⟩
        | some verify =>
            rw [own] at unchecked
            obtain rfl : verify = false := unchecked
            exact .inr (.inl ⟨c, rfl, e, first, of_decide_eq_true same, own⟩)
      · exact .inl ⟨c, rfl, unchecked⟩

variable (cfg) in
/-- The first test has a key and a check of its own. -/
theorem prepare_fits (env : Env) {s : Session} (h : Begun o s) :
    (held (prepare cfg env s)).Fits o cfg := by
  have own : KeyBelongs o cfg s.trail s.url s.key := by
    rcases h with ⟨key, _⟩ | trail
    · cases given : o.apiKey with
      | none =>
          rw [given] at key
          exact .inl key
      | some given' =>
          rw [given] at key
          rw [key]
          exact .inr (.inl given)
    · rw [trail]
      exact .inr (.inr (.inr (.inl (List.mem_singleton_self _))))
  have check (url : String) : CheckBelongs cfg s.trail url (savedTls env.home cfg url).verify :=
    (savedTls_belongs cfg env.home url).mono
  unfold prepare
  dsimp only
  split
  · rename_i cur hcur
    obtain ⟨stored, same⟩ := Option.filter_eq_some_iff.mp hcur
    refine ⟨?_, check s.url⟩
    show KeyBelongs o cfg s.trail s.url (if s.key = "" then cur.key else s.key)
    split
    · exact .inr (.inr (.inl ⟨cur, stored, of_decide_eq_true same, rfl⟩))
    · exact own
  · exact ⟨own, check s.url⟩

theorem prepare_settled (env : Env) {s : Session} (h : Begun o s) :
    (held (prepare cfg env s)).Settled o cfg := by
  have trail : (held (prepare cfg env s)).trail = s.trail := by
    unfold prepare held
    dsimp only
    split
    · rfl
    · rfl
  have fits := prepare_fits cfg env h
  have tests : EachAfter (TestBelongs o cfg) s.trail := by
    rcases h with ⟨_, he⟩ | he
    · rw [he]
      exact eachAfter_nil
    · rw [he]
      exact (Held.tests_concat (e := .keyTyped s.url s.key) fun _ _ _ => nofun).mpr eachAfter_nil
  have edits : EachAfter (EditHarmless o cfg) s.trail := by
    rcases h with ⟨_, he⟩ | he
    · rw [he]
      exact eachAfter_nil
    · rw [he]
      exact (Held.edits_concat (e := .keyTyped s.url s.key) fun _ => nofun).mpr eachAfter_nil
  unfold Held.Settled
  rw [trail]
  exact ⟨fun _ => edits, fun _ => ⟨tests, fits⟩⟩

/-- The engines found are tested without a key and with their certificates checked. -/
theorem allOf_keeps (found : List Found) :
    KeepsSecrets o cfg (allOf found).1 (allOf found).2 ∧
      EachAfter (EditHarmless o cfg) (allOf found).2 := by
  refine ⟨⟨?_, ?_⟩, ?_⟩
  · rintro before e after htrail url key verify rfl
    have he : Event.tested url key verify ∈ (allOf found).2 := by
      rw [htrail]
      exact List.mem_append_right _ List.mem_cons_self
    obtain ⟨f, _, hf⟩ := List.mem_map.mp he
    cases hf
    exact ⟨.inl rfl, nofun⟩
  · intro c hc
    obtain ⟨f, _, rfl⟩ := List.mem_map.mp hc
    exact ⟨.inl rfl, nofun⟩
  · rintro before e after htrail x rfl
    have he : Event.edited x ∈ (allOf found).2 := by
      rw [htrail]
      exact List.mem_append_right _ List.mem_cons_self
    obtain ⟨f, _, hf⟩ := List.mem_map.mp he
    cases hf

theorem done_keeps {done : Pick × List Event} (h : Done done) :
    KeepsSecrets o cfg done.1 done.2 ↔ EachAfter (EditHarmless o cfg) done.2 := by
  rcases h with rfl | rfl | ⟨found, rfl⟩
  · exact ⟨fun _ => eachAfter_nil, fun _ => ⟨eachAfter_nil, nofun⟩⟩
  · exact ⟨fun _ => eachAfter_nil, fun _ => ⟨eachAfter_nil, nofun⟩⟩
  · exact iff_of_true (allOf_keeps found).1 (allOf_keeps found).2

end Run

/-- The wizard comes to an end. Every address it tests or returns goes with a key and a check of
its own exactly where no change of the address takes along a key that was not given for the new
address, without asking, or a waived check. -/
theorem wizard_keeps_secrets_iff (o : Opts) (cfg : Option Config) (env : Env) (io : Io) :
    ∃ pick trail, choose o cfg env io = some (pick, trail) ∧
      (KeepsSecrets o cfg pick trail ↔ EachAfter (EditHarmless o cfg) trail) := by
  have begun := findServer_begun (o := o) (configuredEngine cfg) env io
  unfold choose
  cases start : findServer o (configuredEngine cfg) env io with
  | inl s =>
      rw [start] at begun
      have same : (prepare cfg env s).io = s.io := by
        unfold prepare
        dsimp only
        split
        · rfl
        · rfl
      have enough : patience (prepare cfg env s).io < s.io.lines.length + 2 := by
        rw [same]
        unfold patience
        split
        · omega
        · omega
      exact liveTest_keeps env enough (prepare_settled env begun)
  | inr done =>
      rw [start] at begun
      exact ⟨done.1, done.2, rfl, done_keeps begun⟩

instance (o : Opts) (cfg : Option Config) (before : List Event) (url key : String) :
    Decidable (KeyBelongs o cfg before url key) :=
  inferInstanceAs (Decidable (_ ∨ _ ∨ _ ∨ _ ∨ _))

/-- A file that keeps a key for one engine. -/
def withKey : Config where
  sglangUrl := "auto"
  engineKind := "auto"
  engines := [⟨"auto", "https://10.0.0.5:8000", "secret", none⟩]
  tlsVerify := true
  tlsCaFile := ""

/-- That engine's certificate is not trusted; the other engine answers. -/
def untrusted : Env where
  scan := []
  test := fun _ url _ _ _ =>
    if url = "https://10.0.0.5:8000" then .error (.other "TLS: not accepted") else .ok ["llama"]
  rootStore := fun _ _ => false
  home := "/home/lss"

/-- The engine of the file is asked for. -/
def asked : Opts := ⟨some "https://10.0.0.5:8000", none, none, false⟩

/-- Its certificate is not accepted, and another address is typed. -/
theorem the_key_goes_to_the_new_address :
    ∃ pick trail, choose asked (some withKey) untrusted
        ⟨true, ["e", "https://10.0.0.6:8000", ""]⟩ = some (pick, trail) ∧
      ¬KeepsSecrets asked (some withKey) pick trail := by
  refine ⟨.one ⟨"auto", "https://10.0.0.6:8000", "secret", none, ""⟩,
    [.tested "https://10.0.0.5:8000" "secret" true,
      .edited ⟨"secret", true, "https://10.0.0.6:8000", false⟩,
      .tested "https://10.0.0.6:8000" "secret" true], by decide +kernel, ?_⟩
  intro keeps
  have key := (keeps.2 _ (List.mem_singleton_self _)).1
  exact absurd key (by decide +kernel)

end Lss.Analysis.WizardSecrets
