import Lss.Library.Toml

/-!
# Documents of statements

A document is a row of statements, each of them some whole lines: a comment or a blank line, a key
with a value, which may go over several lines, or a header. How the lines of one statement are
read is a parameter. A document is then cut into its statements in at most one way, and every
statement stands under a header.

`Parser` is a reader of such documents, and `Parser.Lawful` what a reader of TOML promises of it.
-/

set_option autoImplicit false

namespace Lss.Library.Statements

open Toml (Header)
open Lines (OneLine trimmed)

variable {V : Type}

/-- What one statement says; a key may have several parts. -/
inductive Statement (V : Type) where
  | nothing
  | pair (key : List String) (value : V)
  | header (h : Header)
deriving DecidableEq

/-- The header in force once a statement is read. -/
def Statement.under (h : Header) : Statement V → Header
  | .header next => next
  | _ => h

/-- A statement and the lines it is written on. -/
structure Chunk (V : Type) where
  lines : List (List Char)
  statement : Statement V
deriving DecidableEq

/-- The header in force behind some statements. -/
def under (h : Header) (cs : List (Chunk V)) : Header := cs.foldl (fun h c => c.statement.under h) h

/-- Every statement with the header in force there, a header under itself. -/
def placed : Header → List (Chunk V) → List (Header × Chunk V)
  | _, [] => []
  | h, c :: cs => (c.statement.under h, c) :: placed (c.statement.under h) cs

/-- The lines of some statements. -/
def written (cs : List (Chunk V)) : List (List Char) := cs.flatMap Chunk.lines

/-- Some lines are these statements, one after the other. -/
structure Reads (read : List (List Char) → Option (Statement V)) (lines : List (List Char))
    (cs : List (Chunk V)) : Prop where
  whole : written cs = lines
  each : ∀ c ∈ cs, read c.lines = some c.statement

/-! ## Readers of documents -/

/-- What one line of sections says, as a statement. -/
def Statement.ofItem (value : Toml.Data → V) : Toml.Item → Statement V
  | .nothing => .nothing
  | .pair key v => .pair [key] (value v)
  | .header h => .header h

def Statement.isNothing : Statement V → Bool
  | .nothing => true
  | _ => false

@[simp] theorem Statement.isNothing_nothing : (nothing : Statement V).isNothing = true := rfl

@[simp] theorem Statement.isNothing_pair (key : List String) (v : V) :
    (pair key v).isNothing = false := rfl

@[simp] theorem Statement.isNothing_header (h : Header) :
    (header h : Statement V).isNothing = false := rfl

/-- The statements of a document, each with its header. -/
def meaning (rows : List (Header × Chunk V)) : List (Header × Statement V) :=
  rows.map fun d => (d.1, d.2.statement)

/-- The name at the top of a document that a statement is about. -/
def topName (d : Header × Statement V) : Option String :=
  match d with
  | (.root, .pair key _) => key.head?
  | (h, _) => h.path.head?

/-- A reader: what the lines of one statement say, and which statements make a document. -/
structure Parser (V : Type) where
  read : List (List Char) → Option (Statement V)
  accepts : List (Header × Statement V) → Prop
  value : Toml.Data → V
  flag : Bool → V

/-- What holds of a reader of TOML, where `blank` are the characters that count as blank. -/
structure Parser.Lawful (p : Parser V) (blank : Char → Bool) : Prop where
  started : p.read [] = none
  /-- A statement ends where it ends. -/
  ends : ∀ ls more s s', p.read ls = some s → p.read (ls ++ more) = some s' → more = []
  clean : ∀ ls s, p.read ls = some s → ∀ l ∈ ls, OneLine l
  /-- Only a blank line ends with a blank line. -/
  last : ∀ ls l s, p.read (ls ++ [l]) = some s → trimmed blank l = [] → ls = [] ∧ s = .nothing
  /-- A header is one line, and only a header begins with a bracket where it is one line. -/
  header : ∀ ls h, p.read ls = some (.header h) →
    ∃ l, ls = [l] ∧ (trimmed blank l).head? = some '['
  bracket : ∀ l s, p.read [l] = some s → (trimmed blank l).head? = some '[' → ∃ h, s = .header h
  brackets : ∀ l h, p.read [l] = some (.header h) →
    (((trimmed blank l).dropWhile (· = '[')).dropWhile blank).head? ≠ some '['
  element : ∀ l h key, p.read [l] = some (.header h) → Toml.Bare key →
    (trimmed blank l).filter (· ≠ ' ') = '[' :: '[' :: key ++ [']', ']'] →
      h = .element [String.ofList key]
  key : ∀ l s, p.read [l] = some s →
    Toml.Bare ((trimmed blank l).takeWhile fun c => c ≠ '=' && c ≠ ' ') → '=' ∈ trimmed blank l →
      ∃ more v, s = .pair (String.ofList
        ((trimmed blank l).takeWhile fun c => c ≠ '=' && c ≠ ' ') :: more) v
  line : ∀ l : Toml.Line, l.WellFormed → p.read [l.text] = some (.ofItem p.value l.item)
  flagged : ∀ key t b, Toml.Bare key → Toml.Trailing t →
    p.read [key ++ " = ".toList ++ (toString b).toList ++ t] =
      some (.pair [String.ofList key] (p.flag b))
  /-- Comments and blank lines count for nothing. -/
  noted : ∀ ds, p.accepts ds ↔ p.accepts (ds.filter fun d => !d.2.isNothing)
  /-- All that is about one name may go. -/
  without : ∀ ds name, p.accepts ds → p.accepts (ds.filter fun d => topName d ≠ some name)
  /-- A key may be put at the top where nothing is about it. -/
  withKey : ∀ pre post name v, p.accepts (pre ++ post) → (∀ d ∈ pre, d.1 = .root) →
    (∀ d ∈ pre ++ post, topName d ≠ some name) →
      p.accepts (pre ++ (.root, .pair [name] v) :: post)
  /-- An element may be put at the end where nothing is about its name. -/
  withElement : ∀ ds name (pairs : List (String × V)), p.accepts ds →
    (∀ d ∈ ds, topName d ≠ some name) → (pairs.map Prod.fst).Nodup →
      p.accepts (ds ++ (.element [name], .header (.element [name])) ::
        pairs.map fun e => (.element [name], .pair [e.1] e.2))

/-! ## Rows of statements -/

@[simp] theorem under_nil (h : Header) : under h ([] : List (Chunk V)) = h := rfl

@[simp] theorem under_cons (h : Header) (c : Chunk V) (cs : List (Chunk V)) :
    under h (c :: cs) = under (c.statement.under h) cs := rfl

theorem under_append (h : Header) (cs ds : List (Chunk V)) :
    under h (cs ++ ds) = under (under h cs) ds := List.foldl_append

theorem placed_append (h : Header) (cs ds : List (Chunk V)) :
    placed h (cs ++ ds) = placed h cs ++ placed (under h cs) ds := by
  induction cs generalizing h with
  | nil => simp [placed]
  | cons c cs ih => simp [placed, ih]

/-- Statements among which there is no header all stand under one. -/
theorem under_of_plain {h : Header} {cs : List (Chunk V)}
    (plain : ∀ c ∈ cs, ∀ next, c.statement ≠ .header next) : under h cs = h := by
  induction cs generalizing h with
  | nil => rfl
  | cons c cs ih =>
      have here : c.statement.under h = h := by
        cases hc : c.statement with
        | header next => exact absurd hc (plain c List.mem_cons_self next)
        | _ => rfl
      rw [under_cons, here]
      exact ih fun d hd => plain d (List.mem_cons_of_mem _ hd)

@[simp] theorem written_nil : written ([] : List (Chunk V)) = [] := rfl

@[simp] theorem written_cons (c : Chunk V) (cs : List (Chunk V)) :
    written (c :: cs) = c.lines ++ written cs := List.flatMap_cons

@[simp] theorem written_append (cs ds : List (Chunk V)) :
    written (cs ++ ds) = written cs ++ written ds := List.flatMap_append

section Reading

variable {read : List (List Char) → Option (Statement V)}

theorem Reads.append {lines more : List (List Char)} {cs ds : List (Chunk V)}
    (h : Reads read lines cs) (h' : Reads read more ds) : Reads read (lines ++ more) (cs ++ ds) where
  whole := by rw [written_append, h.whole, h'.whole]
  each c hc := (List.mem_append.mp hc).elim (h.each c) (h'.each c)

/-- Where no statement goes on behind its end, a document is cut into statements in one way. -/
theorem Reads.unique (started : read [] = none)
    (ends : ∀ ls more s s', read ls = some s → read (ls ++ more) = some s' → more = [])
    {lines : List (List Char)} {cs ds : List (Chunk V)} (h : Reads read lines cs)
    (h' : Reads read lines ds) : cs = ds := by
  induction cs generalizing lines ds with
  | nil =>
      cases ds with
      | nil => rfl
      | cons d ds =>
          have first := h'.each d List.mem_cons_self
          have empty : d.lines = [] := by
            have both := h'.whole.trans h.whole.symm
            simp only [written_cons, written_nil, List.append_eq_nil_iff] at both
            exact both.1
          rw [empty, started] at first
          cases first
  | cons c cs ih =>
      cases ds with
      | nil =>
          have first := h.each c List.mem_cons_self
          have empty : c.lines = [] := by
            have both := h.whole.trans h'.whole.symm
            simp only [written_cons, written_nil, List.append_eq_nil_iff] at both
            exact both.1
          rw [empty, started] at first
          cases first
      | cons d ds =>
          have hc := h.each c List.mem_cons_self
          have hd := h'.each d List.mem_cons_self
          have both : c.lines ++ written cs = d.lines ++ written ds := by
            rw [← written_cons, ← written_cons, h.whole, h'.whole]
          -- the shorter of the two first statements ends where the longer does
          have same : c.lines = d.lines := by
            rcases List.append_eq_append_iff.mp both with ⟨more, longer, -⟩ | ⟨more, longer, -⟩
            · rw [longer] at hd
              rw [longer, ends _ _ _ _ hc hd, List.append_nil]
            · rw [longer] at hc
              rw [longer, ends _ _ _ _ hd hc, List.append_nil]
          have statement : c.statement = d.statement := by
            rw [same, hd] at hc
            exact (Option.some.inj hc).symm
          rw [same, List.append_cancel_left_eq] at both
          have rest := ih ⟨rfl, fun e he => h.each e (List.mem_cons_of_mem _ he)⟩
            ⟨both.symm, fun e he => h'.each e (List.mem_cons_of_mem _ he)⟩
          cases c
          cases d
          simp_all

end Reading

end Lss.Library.Statements
