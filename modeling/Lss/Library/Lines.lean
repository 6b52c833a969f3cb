import Mathlib.Data.Nat.Notation

/-!
# Texts of lines

A text cut into lines and put together from lines, blanks cut off at the ends, and a character
replaced by a text. All of it is about lists of characters.
-/

set_option autoImplicit false

namespace Lss.Library.Lines

/-- Decided on the list, not over all characters. -/
instance decidableForallMem (p : Char → Prop) [DecidablePred p] (l : List Char) :
    Decidable (∀ c ∈ l, p c) := List.decidableBAll p l

@[inherit_doc decidableForallMem]
instance decidableExistsMem (p : Char → Prop) [DecidablePred p] (l : List Char) :
    Decidable (∃ c ∈ l, p c) := List.decidableBEx p l

/-! ## Lines -/

/-- Some lines, each with its end. -/
def joined (ls : List (List Char)) : List Char := ls.flatMap fun l => l ++ ['\n']

/-- A line without the carriage return at its end. -/
def stripReturn (l : List Char) : List Char :=
  if l.getLast? = some '\r' then l.dropLast else l

/-- The lines of a text. A line ends at a newline, and a carriage return in front of it belongs
to the end; what stands behind the last newline is a line when there is something. -/
def lines (text : List Char) : List (List Char) :=
  let pieces := text.splitOn '\n'
  pieces.dropLast.map stripReturn ++ pieces.getLast?.toList.filter (· ≠ [])

/-- What survives being cut into lines. -/
def OneLine (l : List Char) : Prop := '\n' ∉ l ∧ l.getLast? ≠ some '\r'

theorem splitOn_joined {ls : List (List Char)} (h : ∀ l ∈ ls, '\n' ∉ l) :
    (joined ls).splitOn '\n' = ls ++ [[]] := by
  induction ls with
  | nil => rfl
  | cons l ls ih =>
      unfold joined at ih ⊢
      rw [List.flatMap_cons, List.append_assoc, List.singleton_append,
        List.splitOn_append_cons_self_of_not_mem (h l List.mem_cons_self),
        ih fun k hk => h k (List.mem_cons_of_mem _ hk)]
      rfl

theorem lines_joined {ls : List (List Char)} (h : ∀ l ∈ ls, OneLine l) :
    lines (joined ls) = ls := by
  have strip : ls.map stripReturn = ls.map id := by
    apply List.map_congr_left
    intro l hl
    exact if_neg (h l hl).2
  have last : (ls ++ [[]]).getLast?.toList.filter (· ≠ ([] : List Char)) = [] := by
    rw [List.getLast?_concat]
    rfl
  unfold lines
  rw [splitOn_joined fun l hl => (h l hl).1]
  dsimp only
  rw [List.dropLast_concat, strip, List.map_id, last, List.append_nil]

theorem joined_append (ls ms : List (List Char)) : joined (ls ++ ms) = joined ls ++ joined ms :=
  List.flatMap_append

/-- A text in small letters. -/
def lower (text : List Char) : List Char := text.map Char.toLower

/-! ## Blanks at the ends -/

/-- A text without the characters of a kind at its ends. -/
def trimmed (blank : Char → Bool) (text : List Char) : List Char :=
  ((text.dropWhile blank).reverse.dropWhile blank).reverse

theorem dropWhile_of_head {blank : Char → Bool} {text : List Char}
    (h : ∀ c ∈ text.head?, blank c = false) : text.dropWhile blank = text := by
  cases text with
  | nil => rfl
  | cons c text =>
      apply List.dropWhile_cons_of_neg
      rw [h c rfl]
      decide

/-- Nothing is cut off where neither end is blank. -/
theorem trimmed_of_ends {blank : Char → Bool} {text : List Char}
    (first : ∀ c ∈ text.head?, blank c = false) (last : ∀ c ∈ text.getLast?, blank c = false) :
    trimmed blank text = text := by
  unfold trimmed
  rw [dropWhile_of_head first, dropWhile_of_head, List.reverse_reverse]
  intro c hc
  rw [List.head?_reverse] at hc
  exact last c hc

/-- A text that does not begin with a blank begins as before. -/
theorem head?_trimmed {blank : Char → Bool} {c : Char} (h : blank c = false) (text : List Char) :
    (trimmed blank (c :: text)).head? = some c := by
  have first : (c :: text).dropWhile blank = c :: text := by
    apply dropWhile_of_head
    intro d hd
    cases hd
    exact h
  have last : (text.reverse ++ [c]).dropWhile blank = text.reverse.dropWhile blank ++ [c] := by
    rw [List.dropWhile_append]
    split
    · rename_i he
      rw [List.isEmpty_iff.mp he, List.nil_append]
      apply dropWhile_of_head
      intro d hd
      cases hd
      exact h
    · rfl
  unfold trimmed
  rw [first, List.reverse_cons, last, List.reverse_append]
  rfl

/-! ## Characters replaced -/

/-- Every occurrence of a character replaced by a text. -/
def replace (c : Char) (by_ : List Char) (text : List Char) : List Char :=
  text.flatMap fun d => if d = c then by_ else [d]

theorem replace_append (c : Char) (by_ l m : List Char) :
    replace c by_ (l ++ m) = replace c by_ l ++ replace c by_ m := List.flatMap_append

theorem replace_of_not_mem {c : Char} {by_ text : List Char} (h : c ∉ text) :
    replace c by_ text = text := by
  induction text with
  | nil => rfl
  | cons d text ih =>
      have hd : d ≠ c := fun e => h (e ▸ List.mem_cons_self)
      have ht := ih fun hm => h (List.mem_cons_of_mem _ hm)
      unfold replace at ht ⊢
      rw [List.flatMap_cons, if_neg hd, ht]
      rfl

/-! ## Literals -/

end Lss.Library.Lines
