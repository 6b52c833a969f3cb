import Lss.Library.Statements

/-!
# Readers of values

A reader of documents that also says what its values are: a text, a row of texts, or a row of
tables. It cuts a text into the statements it is made of, when these make a document.
-/

set_option autoImplicit false

namespace Lss.Library.Statements

open Toml (Header)

variable {V : Type}

/-! ## Statements of one line -/

/-- Every statement with the header in force there. -/
def located : Header → List (Statement V) → List (Header × Statement V)
  | _, [] => []
  | h, s :: ss => (s.under h, s) :: located (s.under h) ss

/-- Lines that are each read as a statement. -/
def Spoken (read : List (List Char) → Option (Statement V)) :
    List (List Char) → List (Statement V) → Prop :=
  List.Forall₂ fun l s => read [l] = some s

theorem Spoken.exists_read {read : List (List Char) → Option (Statement V)}
    {ls : List (List Char)} {ss : List (Statement V)} (spoken : Spoken read ls ss) :
    ∀ l ∈ ls, ∃ s, read [l] = some s := by
  induction spoken with
  | nil => simp
  | cons first _ ih => exact List.forall_mem_cons.mpr ⟨⟨_, first⟩, ih⟩

theorem Spoken.exists_chunks {read : List (List Char) → Option (Statement V)}
    {ls : List (List Char)} {ss : List (Statement V)} (spoken : Spoken read ls ss) :
    ∃ cs, Reads read ls cs ∧ ∀ h, meaning (placed h cs) = located h ss := by
  induction spoken with
  | nil => exact ⟨[], ⟨rfl, by simp⟩, fun h => rfl⟩
  | @cons l s ls ss first _ ih =>
      obtain ⟨cs, reads, said⟩ := ih
      refine ⟨⟨[l], s⟩ :: cs, ⟨by simp [reads.whole], fun c hc => ?_⟩, fun h => ?_⟩
      · rcases List.mem_cons.mp hc with rfl | hc
        · exact first
        · exact reads.each c hc
      · rw [located, ← said]
        rfl

/-! ## Readers -/

structure Reader (V : Type) extends Parser V where
  list : List String → V
  text : V → Option String
  texts : V → Option (List String)
  tables : V → Option (List (List (String × V)))
  cut : List Char → Option (List (Chunk V))

namespace Reader

/-- What a text says. -/
def statements (r : Reader V) (t : List Char) : Option (List (Header × Statement V)) :=
  (r.cut t).map fun cs => meaning (placed .root cs)

/-- What holds of a reader of TOML and of the values it makes. -/
structure Correct (r : Reader V) (blank : Char → Bool) : Prop where
  lawful : r.toParser.Lawful blank
  row : ∀ key parts t, Toml.Bare key → (Toml.Value.str parts).WellFormed → Toml.Trailing t →
    r.read [key ++ " = [".toList ++ (Toml.Value.str parts).text ++ ']' :: t] =
      some (.pair [String.ofList key] (r.list [String.ofList (parts.map Prod.fst)]))
  text_str : ∀ s, r.text (r.value (.str s)) = some s
  texts_list : ∀ xs, r.texts (r.list xs) = some xs
  cut_iff : ∀ t cs, r.cut t = some cs ↔
    Reads r.read (Lines.lines t) cs ∧ r.accepts (meaning (placed .root cs))
  /-- The elements of one array make a document. -/
  elements : ∀ name (blocks : List (List (String × V))), (∀ b ∈ blocks, (b.map Prod.fst).Nodup) →
    r.accepts (blocks.flatMap fun b => (.element [name], .header (.element [name])) ::
      b.map fun e => (.element [name], .pair [e.1] e.2))

variable {r : Reader V} {blank : Char → Bool} (correct : r.Correct blank)
include correct

/-- A text that is cut is cut into the statements that are read from its lines. -/
theorem cut_eq_of_reads {t : List Char} {cs ds : List (Chunk V)} (cut : r.cut t = some cs)
    (reads : Reads r.read (Lines.lines t) ds) : cs = ds :=
  ((correct.cut_iff t cs).mp cut).1.unique correct.lawful.started correct.lawful.ends reads

/-- What some lines say, where each is read as a statement. -/
theorem statements_joined {ls : List (List Char)} {ss : List (Statement V)}
    (spoken : Spoken r.read ls ss) (ds : List (Header × Statement V)) :
    r.statements (Lines.joined ls) = some ds ↔
      ds = located .root ss ∧ r.accepts (located .root ss) := by
  obtain ⟨cs, reads, said⟩ := spoken.exists_chunks
  have clean : ∀ l ∈ ls, Lines.OneLine l := by
    intro l hl
    obtain ⟨s, read⟩ := spoken.exists_read l hl
    exact correct.lawful.clean [l] s read l List.mem_cons_self
  rw [← Lines.lines_joined clean] at reads
  unfold statements
  rw [Option.map_eq_some_iff]
  constructor
  · rintro ⟨cs', cut, rfl⟩
    have accepted := ((correct.cut_iff _ _).mp cut).2
    rw [cut_eq_of_reads correct cut reads, said] at accepted ⊢
    exact ⟨rfl, accepted⟩
  · rintro ⟨rfl, accepted⟩
    rw [← said] at accepted ⊢
    exact ⟨cs, (correct.cut_iff _ _).mpr ⟨reads, accepted⟩, rfl⟩

/-- One key makes a document. -/
theorem accepts_key (name : String) (v : V) : r.accepts [(.root, .pair [name] v)] := by
  have empty : r.accepts [] := correct.elements name [] (by simp)
  exact correct.lawful.withKey [] [] name v empty (by simp) (by simp)

end Reader

end Lss.Library.Statements
