import Mathlib.Data.Nat.Notation
import Lss.Library.Trail

/-!
# Dialogues

A dialogue asks, reads what is answered until the answers end, writes down in a trail what
happens, and may be left early. What it does is told by what holds of the trail before and after.
-/

set_option autoImplicit false

namespace Lss.Library

/-- The answers that are left, and what happened so far. -/
structure Talk (ε : Type) where
  answers : List String
  trail : List ε

/-- A dialogue with entries of one kind in its trail and another kind of reasons to leave it. -/
abbrev Dialog (ε σ : Type) := ExceptT σ (StateM (Talk ε))

namespace Dialog

variable {ε σ α β : Type}

/-- What a dialogue comes to. -/
def result (m : Dialog ε σ α) (t : Talk ε) : Except σ α × Talk ε := (ExceptT.run m).run t

/-- The next answer, none when they ended; the question is written down with it. -/
def ask (entry : Option String → ε) : Dialog ε σ (Option String) := do
  let t ← get
  set (⟨t.answers.tail, t.trail ++ [entry t.answers.head?]⟩ : Talk ε)
  pure t.answers.head?

def note (entry : ε) : Dialog ε σ Unit :=
  modify fun t => { t with trail := t.trail ++ [entry] }

/-- Some tries; what then, when none of them comes to something? -/
def tries (once : Dialog ε σ (Option α)) (otherwise : Dialog ε σ α) : ℕ → Dialog ε σ α
  | 0 => otherwise
  | n + 1 => do
    match ← once with
    | some a => pure a
    | none => tries once otherwise n

/-! ## Before and after -/

/-- From a trail as asked, a dialogue that comes to its end has a result and a trail as told, and
one that is left early a trail as told. -/
structure Triple (before : List ε → Prop) (m : Dialog ε σ α) (after : α → List ε → Prop)
    (left : List ε → Prop) : Prop where
  run : ∀ t, before t.trail →
    match m.result t with
    | (.ok a, t') => after a t'.trail
    | (.error _, t') => left t'.trail

variable {before : List ε → Prop} {after : α → List ε → Prop} {left : List ε → Prop}

theorem Triple.pure {a : α} (h : ∀ trail, before trail → after a trail) :
    Triple before (Pure.pure a : Dialog ε σ α) after left := ⟨fun t ht => h t.trail ht⟩

theorem Triple.throw {s : σ} (h : ∀ trail, before trail → left trail) :
    Triple before (throw s : Dialog ε σ α) after left := ⟨fun t ht => h t.trail ht⟩

theorem Triple.ask {entry : Option String → ε} {after : Option String → List ε → Prop}
    (h : ∀ trail a, before trail → after a (trail ++ [entry a])) :
    Triple before (Dialog.ask entry : Dialog ε σ (Option String)) after left :=
  ⟨fun t ht => h t.trail t.answers.head? ht⟩

theorem Triple.note {entry : ε} {after : Unit → List ε → Prop}
    (h : ∀ trail, before trail → after () (trail ++ [entry])) :
    Triple before (Dialog.note entry : Dialog ε σ Unit) after left := ⟨fun t ht => h t.trail ht⟩

/-- One dialogue after the other: the second one goes on where the first came to its end. -/
theorem result_bind (m : Dialog ε σ α) (f : α → Dialog ε σ β) (t : Talk ε) :
    (m >>= f).result t =
      match m.result t with
      | (.ok a, t') => (f a).result t'
      | (.error s, t') => (.error s, t') := by
  show (ExceptT.bindCont f (m.result t).1 : StateM (Talk ε) (Except σ β)).run (m.result t).2 = _
  rcases m.result t with ⟨s | a, t'⟩
  · rfl
  · rfl

theorem Triple.bind {m : Dialog ε σ α} {f : α → Dialog ε σ β} {last : β → List ε → Prop}
    (hm : Triple before m after left) (hf : ∀ a, Triple (after a) (f a) last left) :
    Triple before (m >>= f) last left := by
  constructor
  intro t ht
  have first := hm.run t ht
  rw [result_bind]
  rcases hr : m.result t with ⟨s | a, t'⟩
  · rw [hr] at first
    exact first
  · rw [hr] at first
    exact (hf a).run t' first

/-- An entry is written down, and then the dialogue goes on. -/
theorem Triple.note_bind {entry : ε} {f : Unit → Dialog ε σ β} {last : β → List ε → Prop}
    {between : List ε → Prop} (h : ∀ trail, before trail → between (trail ++ [entry]))
    (hf : Triple between (f ()) last left) : Triple before (Dialog.note entry >>= f) last left :=
  Triple.bind (Triple.note h) fun _ => hf

theorem Triple.imp {m : Dialog ε σ α} {before' : List ε → Prop} {after' : α → List ε → Prop}
    {left' : List ε → Prop} (h : Triple before m after left)
    (hbefore : ∀ trail, before' trail → before trail)
    (hafter : ∀ a trail, after a trail → after' a trail)
    (hleft : ∀ trail, left trail → left' trail) : Triple before' m after' left' := by
  constructor
  intro t ht
  have run := h.run t (hbefore t.trail ht)
  rcases hr : m.result t with ⟨s | a, t'⟩
  · rw [hr] at run
    exact hleft _ run
  · rw [hr] at run
    exact hafter a _ run

/-! ## What is kept -/

/-- A dialogue keeps something of its trail, and more is known when it comes to its end. -/
def Keeps (kept : List ε → Prop) (m : Dialog ε σ α) (after : α → List ε → Prop) : Prop :=
  Triple kept m (fun a trail => kept trail ∧ after a trail) kept

variable {kept : List ε → Prop}

theorem Keeps.pure {a : α} (h : ∀ trail, kept trail → after a trail) :
    Keeps kept (Pure.pure a : Dialog ε σ α) after :=
  Triple.pure fun trail ht => ⟨ht, h trail ht⟩

theorem Keeps.throw {s : σ} : Keeps kept (throw s : Dialog ε σ α) after :=
  Triple.throw fun _ ht => ht

theorem Keeps.bind {m : Dialog ε σ α} {f : α → Dialog ε σ β} {last : β → List ε → Prop}
    (hm : Keeps kept m after)
    (hf : ∀ a, Keeps (fun trail => kept trail ∧ after a trail) (f a) last) :
    Keeps kept (m >>= f) last := by
  apply Triple.bind hm
  intro a
  exact Triple.imp (hf a) (fun _ h => h) (fun _ _ h => ⟨h.1.1, h.2⟩) fun _ h => h.1

theorem Keeps.imp {m : Dialog ε σ α} {after' : α → List ε → Prop} (h : Keeps kept m after)
    (himp : ∀ a trail, kept trail → after a trail → after' a trail) : Keeps kept m after' :=
  Triple.imp h (fun _ ht => ht) (fun a trail ht => ⟨ht.1, himp a trail ht.1 ht.2⟩) fun _ ht => ht

/-- What is kept holds also where the dialogue is left early. -/
theorem Keeps.triple {m : Dialog ε σ α} (h : Keeps kept m after)
    (hleft : ∀ trail, kept trail → left trail) :
    Triple kept m (fun a trail => kept trail ∧ after a trail) left :=
  Triple.imp h (fun _ ht => ht) (fun _ _ ht => ht) hleft

/-- Tries keep what each of them keeps. -/
theorem Keeps.tries {once : Dialog ε σ (Option α)} {otherwise : Dialog ε σ α}
    (honce : Keeps kept once fun o trail => ∀ a, o = some a → after a trail)
    (hotherwise : Keeps kept otherwise after) (n : ℕ) :
    Keeps kept (Dialog.tries once otherwise n) after := by
  induction n with
  | zero => exact hotherwise
  | succ n ih =>
      apply Triple.bind honce
      intro o
      cases o with
      | none => exact Triple.imp ih (fun _ h => h.1) (fun _ _ h => h) fun _ h => h
      | some a => exact Triple.pure fun trail h => ⟨h.1, h.2 a rfl⟩

/-- Something that entries of a kind do not change. -/
def Stable (kind : ε → Prop) (kept : List ε → Prop) : Prop :=
  ∀ trail e, kind e → kept trail → kept (trail ++ [e])

variable {kind : ε → Prop}

theorem Stable.and {kept' : List ε → Prop} (h : Stable kind kept) (h' : Stable kind kept') :
    Stable kind fun trail => kept trail ∧ kept' trail :=
  fun trail e he ht => ⟨h trail e he ht.1, h' trail e he ht.2⟩

theorem stable_const (p : Prop) : Stable kind fun _ : List ε => p := fun _ _ _ h => h

theorem Stable.imp {p : Prop} (h : Stable kind kept) : Stable kind fun trail => p → kept trail :=
  fun trail e he ht hp => h trail e he (ht hp)

/-- What happened stays in the trail. -/
theorem stable_mem (e : ε) : Stable kind fun trail => e ∈ trail :=
  fun _ _ _ h => List.mem_append_left _ h

theorem stable_not_mem {e : ε} (h : ¬kind e) : Stable kind fun trail => e ∉ trail := by
  intro trail e' he' ht hmem
  rcases List.mem_append.mp hmem with hmem | hmem
  · exact ht hmem
  · rw [List.mem_singleton.mp hmem] at h
    exact h he'

theorem stable_eachAfter {P : List ε → ε → Prop} (h : ∀ trail e, kind e → P trail e) :
    Stable kind (EachAfter P) :=
  fun trail e he ht => eachAfter_concat.mpr ⟨ht, h trail e he⟩

/-- A question keeps what its entries do not change. -/
theorem Keeps.ask {entry : Option String → ε} (hkept : Stable kind kept)
    (hentry : ∀ a, kind (entry a)) :
    Keeps kept (Dialog.ask entry : Dialog ε σ (Option String)) fun a trail => entry a ∈ trail :=
  Triple.ask fun trail a ht =>
    ⟨hkept trail (entry a) (hentry a) ht, List.mem_append_right _ (List.mem_singleton_self _)⟩

theorem Keeps.note {entry : ε} (hkept : Stable kind kept) (hentry : kind entry) :
    Keeps kept (Dialog.note entry : Dialog ε σ Unit) fun _ trail => entry ∈ trail :=
  Triple.note fun trail ht =>
    ⟨hkept trail entry hentry ht, List.mem_append_right _ (List.mem_singleton_self _)⟩

end Dialog

end Lss.Library
