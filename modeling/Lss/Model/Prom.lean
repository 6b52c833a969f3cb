import Lss.Library.Lines
import Lss.Model.Incidents

/-!
# Reading metrics

The text an engine publishes its metrics in, read into series. A line that is a comment, blank
or malformed is skipped.

The source scans the bytes of a line and copies whole characters. Every byte it stops at is
ASCII, and such a byte is a character of its own, so the scan is one over characters here; what
is left takes the place of the offset. The one place where the two differ has a comment.
-/

set_option autoImplicit false

namespace Lss.Model.Prom

open Lss.Library.Lines

/-- What metrics do with a number beside the arithmetic. No law is assumed of it. -/
class F64Text (F : Type) extends F64 F where
  /-- a signed integer as a floating-point number -/
  ofInt : ℤ → F
  nan : F
  infinity : F
  negInfinity : F
  /-- the number a text stands for -/
  parse : String → Option F

/-- One sample of a metric.
SOURCE: lss-core/src/prom.rs:6-10 -/
structure Series (F : Type) where
  name : String
  labels : List (String × String)
  value : F

/-- The first word of a text. -/
def firstWord (text : List Char) : Option String :=
  let word := (text.dropWhile isBlank).takeWhile fun c => !isBlank c
  if word = [] then none else some (String.ofList word)

/-- What stands for a backslash and the character behind it. -/
def unescaped (c : Char) : List Char :=
  if c = 'n' then ['\n']
  else if c = '"' then ['"']
  else if c = '\\' then ['\\']
  else ['\\', c]

/-- The value of a label up to its closing quote, and the text behind the quote.
SOURCE: lss-core/src/prom.rs:77-104 -/
def labelValue : List Char → Option (List Char × List Char)
  | [] => none
  | c :: rest =>
    if c = '\\' then
      match rest with
      | [] => none
      | e :: rest =>
        -- the source goes on two bytes further, which is inside a character that has several
        if e.toNat < 128 then (labelValue rest).map fun r => (unescaped e ++ r.1, r.2) else none
    else if c = '"' then some ([], rest)
    else (labelValue rest).map fun r => (c :: r.1, r.2)

theorem labelValue_escape {e : Char} (he : e.toNat < 128) (rest : List Char) :
    labelValue ('\\' :: e :: rest) =
      (labelValue rest).map fun r => (unescaped e ++ r.1, r.2) := by
  rw [labelValue.eq_def]
  dsimp only
  rw [if_pos rfl, if_pos he]

theorem labelValue_quote (rest : List Char) : labelValue ('"' :: rest) = some ([], rest) := by
  rw [labelValue.eq_def]
  dsimp only
  rw [if_neg (by decide), if_pos rfl]

theorem labelValue_char {c : Char} (h₁ : c ≠ '\\') (h₂ : c ≠ '"') (rest : List Char) :
    labelValue (c :: rest) = (labelValue rest).map fun r => (c :: r.1, r.2) := by
  rw [labelValue.eq_def]
  dsimp only
  rw [if_neg h₁, if_neg h₂]

theorem length_labelValue {text : List Char} {r : List Char × List Char}
    (h : labelValue text = some r) : r.2.length < text.length := by
  fun_induction labelValue text generalizing r with
  | case1 => cases h
  | case2 => cases h
  | case3 e rest _ ih =>
      obtain ⟨r', hr', rfl⟩ := Option.map_eq_some_iff.mp h
      have := ih hr'
      simp only [List.length_cons]
      omega
  | case4 => cases h
  | case5 rest =>
      cases h
      exact Nat.lt_succ_self _
  | case6 c rest _ _ ih =>
      obtain ⟨r', hr', rfl⟩ := Option.map_eq_some_iff.mp h
      have := ih hr'
      simp only [List.length_cons]
      omega

/-- The labels up to the closing brace, and the text behind it.
SOURCE: lss-core/src/prom.rs:51-107 -/
def parseLabels (body : List Char) : Option (List (String × String) × List Char) :=
  match h : body.dropWhile fun c => c = ',' || c = ' ' with
  | [] => none
  | c :: after =>
    if c = '}' then some ([], after)
    else
      let key := trimmed isBlank ((c :: after).takeWhile (· ≠ '='))
      match h' : (c :: after).dropWhile (· ≠ '=') with
      | _ :: quote :: text =>
        if quote = '"' then
          match h'' : labelValue text with
          | some (value, rest) =>
            (parseLabels rest).map fun r =>
              ((String.ofList key, String.ofList value) :: r.1, r.2)
          | none => none
        else none
      | _ => none
termination_by body.length
decreasing_by
  have outer := (List.dropWhile_sublist (l := body) fun c => c = ',' || c = ' ').length_le
  have inner := (List.dropWhile_sublist (l := c :: after) (· ≠ '=')).length_le
  have value := length_labelValue h''
  rw [h] at outer
  rw [h'] at inner
  simp only [List.length_cons] at outer inner value
  omega

theorem parseLabels_close (rest : List Char) : parseLabels ('}' :: rest) = some ([], rest) := by
  rw [parseLabels.eq_def]
  rfl

/-- One label in front of any text, commas and blanks in front of it skipped. -/
theorem parseLabels_label {body key text value rest : List Char} {c : Char}
    (skip : body.dropWhile (fun c => c = ',' || c = ' ') = c :: (key ++ '=' :: '"' :: text))
    (brace : c ≠ '}') (equals : ∀ d ∈ c :: key, d ≠ '=')
    (quoted : labelValue text = some (value, rest)) :
    parseLabels body = (parseLabels rest).map fun r =>
      ((String.ofList (trimmed isBlank (c :: key)), String.ofList value) :: r.1, r.2) := by
  have whole : ∀ d ∈ c :: key, (decide (d ≠ '=')) = true := fun d hd => decide_eq_true (equals d hd)
  have take : (c :: (key ++ '=' :: '"' :: text)).takeWhile (· ≠ '=') = c :: key := by
    rw [← List.cons_append, List.takeWhile_append_of_pos whole]
    exact List.append_nil _
  have drop : (c :: (key ++ '=' :: '"' :: text)).dropWhile (· ≠ '=') = '=' :: '"' :: text := by
    rw [← List.cons_append, List.dropWhile_append_of_pos whole]
    rfl
  rw [parseLabels.eq_def]
  split
  · rename_i h
    rw [skip] at h
    cases h
  · rename_i c' after h
    rw [skip] at h
    obtain ⟨rfl, rfl⟩ := List.cons.inj h
    rw [if_neg brace]
    dsimp only
    split
    · rename_i quote text' h'
      rw [drop] at h'
      obtain ⟨rfl, rfl⟩ := List.cons.inj (List.cons.inj h').2
      rw [if_pos rfl]
      split
      · rename_i value' rest' h''
        rw [quoted] at h''
        obtain ⟨rfl, rfl⟩ := Prod.mk.inj (Option.some.inj h'')
        rw [take]
      · rename_i h''
        rw [quoted] at h''
        cases h''
    · rename_i h'
      exact absurd drop (h' _ _ _)

section Numbers

variable {F : Type} [F64Text F]

/-- SOURCE: lss-core/src/prom.rs:42-47 -/
def readValue (word : String) : Option F :=
  if word = "NaN" then some F64Text.nan
  else if word = "+Inf" ∨ word = "Inf" then some F64Text.infinity
  else if word = "-Inf" then some F64Text.negInfinity
  else F64Text.parse word

/-- SOURCE: lss-core/src/prom.rs:24-49 -/
def parseLine (text : List Char) : Option (Series F) :=
  let line := trimmed isBlank text
  if line = [] ∨ line.head? = some '#' then none
  else
    let name := line.takeWhile fun c => !(c = '{' || c = ' ')
    let rest := line.dropWhile fun c => !(c = '{' || c = ' ')
    if rest = [] ∨ name = [] then none
    else
      (if rest.head? = some '{' then parseLabels rest.tail else some ([], rest)).bind fun b =>
        -- a timestamp may follow the value
        (firstWord b.2).bind fun word =>
          (readValue word).map fun value => ⟨String.ofList name, b.1, value⟩

/-- SOURCE: lss-core/src/prom.rs:18-22 -/
def parse (text : String) : List (Series F) := (lines text.toList).filterMap parseLine

end Numbers

end Lss.Model.Prom
