import Mathlib.Data.List.Forall2

/-!
# A line for a shell

How a shell splits a line into commands and words: blanks end a word, quotes and backslashes keep
characters as they are, `&&` ends a command, a tilde in front of a slash is the home directory.
A line with anything else that an unquoted character may start (a variable, a pattern, a
redirection, another operator, a comment, a compound command) has no reading here.

Texts that read as words, whatever stands around them, can be put together: one behind the other
they read as one word, with a blank between them as two.
-/

set_option autoImplicit false

namespace Lss.Library.Shell

/-- The characters of a word, each with whether it was quoted. -/
abbrev Word := List (Char × Bool)

inductive Token where
  | word (w : Word)
  | andIf
deriving DecidableEq

/-! ## Tokens -/

/-- Where a character stands. -/
inductive Mode where
  | plain
  /-- between single quotes -/
  | quoted
  /-- behind a backslash -/
  | escaped
  /-- behind one ampersand -/
  | ampersand
deriving DecidableEq

/-- The characters that mean something else where they are not quoted. -/
def special : List Char :=
  ['|', ';', '<', '>', '(', ')', '$', '`', '"', '*', '?', '[', '\n']

/-- The word that is open, if one is. -/
def flush (open_ : Option Word) : List Token := (open_.map Token.word).toList

/-- The tokens of a line. -/
def lex : Mode → Option Word → List Char → Option (List Token)
  | .plain, w, [] => some (flush w)
  | .plain, w, c :: rest =>
    if c = '\'' then lex .quoted (some (w.getD [])) rest
    else if c = '\\' then lex .escaped w rest
    else if c = ' ' ∨ c = '\t' then (lex .plain none rest).map (flush w ++ ·)
    else if c = '&' then (lex .ampersand none rest).map (flush w ++ ·)
    else if c ∈ special ∨ (c = '#' ∧ w = none) then none
    else lex .plain (some (w.getD [] ++ [(c, false)])) rest
  | .quoted, _, [] => none
  | .quoted, w, c :: rest =>
    if c = '\'' then lex .plain w rest else lex .quoted (some (w.getD [] ++ [(c, true)])) rest
  | .escaped, _, [] => none
  | .escaped, w, c :: rest =>
    if c = '\n' then lex .plain w rest else lex .plain (some (w.getD [] ++ [(c, true)])) rest
  | .ampersand, _, [] => none
  | .ampersand, _, c :: rest =>
    if c = '&' then (lex .plain none rest).map (Token.andIf :: ·) else none

/-! ## Commands -/

/-- The words a command is not named by. -/
def reservedWords : List (List Char) :=
  ["!", "\x7b", "\x7d", "case", "do", "done", "elif", "else", "esac", "fi", "for", "if", "in", "then",
    "until", "while"].map String.toList

/-- A word as it stands, nothing of it quoted. -/
def bare (text : List Char) : Word := text.map fun c => (c, false)

/-- A word as it stands, all of it quoted. -/
def quoted (text : List Char) : Word := text.map fun c => (c, true)

def isReserved (w : Word) : Bool := reservedWords.any fun r => w = bare r

/-- Whether a word sets a variable: a name that is not quoted in front of an equals sign. -/
def isAssignment (w : Word) : Bool :=
  let name := w.takeWhile (· ≠ ('=', false))
  w.contains ('=', false) && name.all (fun c => !c.2 && (c.1.isAlphanum || c.1 = '_')) &&
    name.head?.any fun c => !c.1.isDigit

/-- A word once its tilde and its quotes are gone. -/
def expand (home : List Char) (w : Word) : Option (List Char) :=
  match w with
  | ('~', false) :: rest =>
    let login := rest.takeWhile (· ≠ ('/', false))
    if login = [] then some (home ++ rest.map Prod.fst)
    -- a quoted name is none, another name is another home
    else if login.any Prod.snd then some (w.map Prod.fst)
    else none
  | _ => some (w.map Prod.fst)

/-- A simple command: the variables set in front of it, as they are written, and its words. -/
structure Command where
  assigned : List (List Char)
  words : List (List Char)
deriving DecidableEq

def command (home : List Char) (ws : List Word) : Option Command :=
  if ws = [] ∨ ws.head?.any isReserved then none
  else
    ((ws.dropWhile isAssignment).mapM (expand home)).map
      fun words => ⟨(ws.takeWhile isAssignment).map fun w => w.map Prod.fst, words⟩

/-- Words are a command of their own when the first is not reserved and sets nothing. -/
theorem command_of_plain {home : List Char} {w : Word} {ws : List Word}
    (plain : isReserved w = false) (sets_nothing : isAssignment w = false) :
    command home (w :: ws) = ((w :: ws).mapM (expand home)).map fun words => ⟨[], words⟩ := by
  simp [command, plain, sets_nothing]

def Token.word? : Token → Option Word
  | .word w => some w
  | .andIf => none

/-- The commands a shell runs one after the other. -/
def read (home : List Char) (line : List Char) : Option (List Command) :=
  (lex .plain none line).bind fun tokens =>
    (tokens.splitOn .andIf).mapM fun ts => command home (ts.filterMap Token.word?)

/-! ## Texts that read as words -/

/-- A text that reads as a word, whatever stands before and behind it. -/
def Reads (text : List Char) (w : Word) : Prop :=
  ∀ (before : Option Word) (rest : List Char),
    lex .plain before (text ++ rest) = lex .plain (some (before.getD [] ++ w)) rest

theorem Reads.append {s t : List Char} {v w : Word} (hs : Reads s v) (ht : Reads t w) :
    Reads (s ++ t) (v ++ w) := by
  intro before rest
  rw [List.append_assoc, hs, ht, Option.getD_some, List.append_assoc]

/-- What an unquoted character may be to read as itself. -/
def Harmless (c : Char) : Prop :=
  c ∉ special ∧ c ∉ ['\'', '\\', ' ', '\t', '&', '#']

instance (c : Char) : Decidable (Harmless c) := inferInstanceAs (Decidable (_ ∧ _))

theorem Reads.char {c : Char} (h : Harmless c) : Reads [c] [(c, false)] := by
  obtain ⟨plain, other⟩ := h
  simp only [List.mem_cons, List.not_mem_nil, or_false, not_or] at other
  obtain ⟨quote, backslash, blank, tab, amp, hash⟩ := other
  intro before rest
  simp only [List.singleton_append, lex, quote, backslash, blank, tab, amp, hash, plain, if_false,
    or_self, false_and]

/-- Harmless characters read as themselves. -/
theorem Reads.bare {text : List Char} (h : ∀ c ∈ text, Harmless c) (some_text : text ≠ []) :
    Reads text (bare text) := by
  induction text with
  | nil => exact absurd rfl some_text
  | cons c text ih =>
      have first := Reads.char (h c List.mem_cons_self)
      cases text with
      | nil => exact first
      | cons d text =>
          exact first.append (ih (fun e he => h e (List.mem_cons_of_mem c he))
            (List.cons_ne_nil _ _))

/-- A text in single quotes, each of its own quotes behind a backslash between them. -/
def singleQuoted (text : List Char) : List Char :=
  '\'' :: (text.flatMap fun c => if c = '\'' then "'\\''".toList else [c]) ++ ['\'']

/-- Between single quotes every character reads as itself. -/
theorem lex_quoted (text : List Char) (w : Word) (rest : List Char) :
    lex .quoted (some w)
      ((text.flatMap fun c => if c = '\'' then "'\\''".toList else [c]) ++ '\'' :: rest) =
        lex .plain (some (w ++ quoted text)) rest := by
  induction text generalizing w with
  | nil => simp [lex, quoted]
  | cons c text ih =>
      have step : lex .quoted (some w)
          ((if c = '\'' then "'\\''".toList else [c]) ++
            ((text.flatMap fun c => if c = '\'' then "'\\''".toList else [c]) ++ '\'' :: rest)) =
          lex .quoted (some (w ++ [(c, true)]))
            ((text.flatMap fun c => if c = '\'' then "'\\''".toList else [c]) ++ '\'' :: rest) := by
        by_cases quote : c = '\''
        · subst quote
          simp [lex]
        · simp [lex, quote]
      rw [List.flatMap_cons, List.append_assoc, step, ih]
      simp [quoted]

theorem Reads.singleQuoted (text : List Char) : Reads (singleQuoted text) (quoted text) := by
  intro before rest
  have opened : lex .plain before (Shell.singleQuoted text ++ rest) =
      lex .quoted (some (before.getD []))
        ((text.flatMap fun c => if c = '\'' then "'\\''".toList else [c]) ++ '\'' :: rest) := by
    simp [Shell.singleQuoted, lex]
  rw [opened, lex_quoted]

/-! ## Lines put together -/

/-- A text that stands for a token: a word, or the operator. -/
inductive Item : List Char → Token → Prop where
  | word {text : List Char} {w : Word} (reads : Reads text w) : Item text (.word w)
  | andIf : Item ['&', '&'] .andIf

theorem Item.lex_blank {text : List Char} {token : Token} (h : Item text token)
    (rest : List Char) :
    lex .plain none (text ++ ' ' :: rest) = (lex .plain none rest).map (token :: ·) := by
  cases h with
  | word reads =>
      rw [reads]
      simp [lex, flush]
  | andIf =>
      simp only [List.cons_append, List.nil_append, lex, flush]
      simp [Option.map_map, Function.comp_def]

theorem Item.lex_end {text : List Char} {token : Token} (h : Item text token) :
    lex .plain none text = some [token] := by
  cases h with
  | word reads =>
      have alone := reads none []
      rw [List.append_nil] at alone
      rw [alone]
      simp [lex, flush]
  | andIf => rfl

/-- Texts with blanks between them read as their tokens. -/
theorem lex_intercalate {texts : List (List Char)} {tokens : List Token}
    (h : List.Forall₂ Item texts tokens) :
    lex .plain none ([' '].intercalate texts) = some tokens := by
  induction h with
  | nil => rfl
  | cons first rest ih =>
      cases rest with
      | nil =>
          rw [List.intercalate_singleton]
          exact first.lex_end
      | cons second rest =>
          rw [List.intercalate_cons_cons, List.append_assoc, List.singleton_append,
            first.lex_blank, ih]
          rfl

/-! ## What words expand to -/

theorem expand_quoted (home text : List Char) : expand home (quoted text) = some text := by
  have same : (quoted text).map Prod.fst = text := by simp [quoted, Function.comp_def]
  unfold expand
  split
  · rename_i rest tilde
    cases text with
    | nil => cases tilde
    | cons c text =>
        simp only [quoted, List.map_cons, List.cons.injEq, Prod.mk.injEq] at tilde
        exact absurd tilde.1.2 (by decide)
  · rw [same]

theorem expand_bare {home text : List Char} (no_tilde : text.head? ≠ some '~') :
    expand home (bare text) = some text := by
  have same : (bare text).map Prod.fst = text := by simp [bare, Function.comp_def]
  unfold expand
  split
  · rename_i rest tilde
    cases text with
    | nil => cases tilde
    | cons c text =>
        simp only [bare, List.map_cons, List.cons.injEq, Prod.mk.injEq, and_true] at tilde
        exact absurd (by simp [tilde.1]) no_tilde
  · rw [same]

theorem expand_all {home : List Char} {ws : List Word} {texts : List (List Char)}
    (h : List.Forall₂ (fun w text => expand home w = some text) ws texts) :
    ws.mapM (expand home) = some texts := by
  induction h with
  | nil => rfl
  | cons first rest ih => simp [List.mapM_cons, first, ih]

/-- A tilde in front of a slash is the home directory. -/
theorem expand_home (home : List Char) (w : Word) :
    expand home (('~', false) :: ('/', false) :: w) = some (home ++ '/' :: w.map Prod.fst) := by
  simp [expand]

/-- The quoted word sets nothing and is not reserved. -/
theorem not_assignment_quoted (text : List Char) : isAssignment (quoted text) = false := by
  have none_equal : (quoted text).contains ('=', false) = false := by
    simp [quoted]
  unfold isAssignment
  rw [none_equal]
  rfl

theorem not_reserved_of_mem {w : Word} {c : Char} (h : (c, true) ∈ w) : isReserved w = false := by
  unfold isReserved
  rw [List.any_eq_false]
  intro r _ same
  rw [decide_eq_true_eq] at same
  rw [same, bare, List.mem_map] at h
  obtain ⟨_, -, h⟩ := h
  simp at h

end Lss.Library.Shell
