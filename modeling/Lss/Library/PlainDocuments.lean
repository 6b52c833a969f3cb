import Lss.Library.Statements
import Mathlib.Data.List.DropRight

/-!
# Documents of one line a statement

A reader of the documents that are written one statement a line, with keys that need no quotes. It
is a lawful one: what is promised of readers is promised of something.
-/

set_option autoImplicit false

namespace Lss.Library.Statements

open Toml (Header bare)

/-! ## Reading -/

/-- What a header names between its brackets. -/
def inBrackets (c : Char) : Bool := bare c || c = '.'

/-- A header, and a comment behind it. -/
def readHeading (line : List Char) : Option Header :=
  let array := line.take 2 = ['[', '[']
  let inside := if array then line.drop 2 else line.drop 1
  let name := inside.takeWhile inBrackets
  let rest := inside.dropWhile inBrackets
  let close := if array then [']', ']'] else [']']
  if name ≠ [] ∧ close <+: rest ∧ Toml.onlyTrailing (rest.drop close.length) then
    some (if array then .element (Toml.readPath name) else .table (Toml.readPath name))
  else none

/-- A key that says yes or no. -/
def readFlag (text : List Char) : Option Bool :=
  if "true".toList <+: text ∧ Toml.onlyTrailing (text.drop 4) then some true
  else if "false".toList <+: text ∧ Toml.onlyTrailing (text.drop 5) then some false
  else none

/-- A value, and a comment behind it. -/
def readEntry (text : List Char) : Option (Toml.Data ⊕ Bool) :=
  match readFlag text with
  | some b => some (.inr b)
  | none => (Toml.readValue text).bind fun v =>
    if Toml.onlyTrailing v.2 then some (.inl v.1) else none

def readPlain (line : List Char) : Option (Statement (Toml.Data ⊕ Bool)) :=
  if line.any Toml.control then none
  else if Toml.onlyTrailing line then some .nothing
  else if line.head? = some '[' then (readHeading line).map .header
  else
    let key := line.takeWhile bare
    let rest := line.dropWhile bare
    if key ≠ [] ∧ " = ".toList <+: rest then
      (readEntry (rest.drop 3)).map fun v => .pair [String.ofList key] v
    else none

/-- The path that a statement defines; the elements of an array may be opened again. -/
def defines {V : Type} : Header × Statement V → Option (List String)
  | (.root, .pair key _) => some key
  | (.table (top :: path), .pair key _) => some (top :: path ++ key)
  | (.table path, .header _) => some path
  | _ => none

/-- Nothing is defined twice, and nothing that is an array. -/
def WellDefined {V : Type} (ds : List (Header × Statement V)) : Prop :=
  (ds.filterMap defines).Nodup ∧ ∀ path,
    (Header.element path, Statement.header (.element path)) ∈ ds → path ∉ ds.filterMap defines

def plain : Parser (Toml.Data ⊕ Bool) where
  read := fun
    | [line] => readPlain line
    | _ => none
  accepts := WellDefined
  value := .inl
  flag := .inr

/-! ## What was read -/

theorem readHeading_eq_some {line : List Char} {h : Header} (first : line.head? = some '[')
    (read : readHeading line = some h) : ∃ name t, name ≠ [] ∧ (∀ c ∈ name, inBrackets c) ∧
      (line = ['[', '['] ++ name ++ [']', ']'] ++ t ∧ h = .element (Toml.readPath name) ∨
        line = ['['] ++ name ++ [']'] ++ t ∧ h = .table (Toml.readPath name)) := by
  have inside_of : ∀ inside : List Char, ∀ c ∈ inside.takeWhile inBrackets, inBrackets c :=
    fun inside c hc => List.mem_takeWhile_imp hc
  unfold readHeading at read
  by_cases array : line.take 2 = ['[', '[']
  · simp only [array, if_true] at read
    split at read
    · rename_i closed
      obtain ⟨name, ⟨t, rest⟩, -⟩ := closed
      refine ⟨_, t, name, inside_of _, Or.inl ⟨?_, (Option.some.inj read).symm⟩⟩
      calc line = line.take 2 ++ line.drop 2 := (List.take_append_drop 2 line).symm
        _ = ['[', '['] ++ ((line.drop 2).takeWhile inBrackets ++
              (line.drop 2).dropWhile inBrackets) := by
            rw [array, List.takeWhile_append_dropWhile]
        _ = _ := by rw [← rest]; simp
    · cases read
  · simp only [array, if_false] at read
    split at read
    · rename_i closed
      obtain ⟨name, ⟨t, rest⟩, -⟩ := closed
      refine ⟨_, t, name, inside_of _, Or.inr ⟨?_, (Option.some.inj read).symm⟩⟩
      obtain ⟨tail, rfl⟩ := List.head?_eq_some_iff.mp first
      calc '[' :: tail = ['['] ++ (tail.takeWhile inBrackets ++ tail.dropWhile inBrackets) := by
            rw [List.takeWhile_append_dropWhile]
            rfl
        _ = _ := by
            simp only [List.drop_succ_cons, List.drop_zero] at rest ⊢
            rw [← rest]
            simp
    · cases read

/-- What a line says: nothing, a header or a key. -/
theorem readPlain_eq_some {line : List Char} {s : Statement (Toml.Data ⊕ Bool)}
    (read : readPlain line = some s) : (∀ c ∈ line, Toml.control c = false) ∧
      (Toml.onlyTrailing line ∧ s = .nothing ∨
        line.head? = some '[' ∧ (∃ h, readHeading line = some h ∧ s = .header h) ∨
        ∃ key value v, key ≠ [] ∧ (∀ c ∈ key, bare c) ∧ line = key ++ " = ".toList ++ value ∧
          s = .pair [String.ofList key] v) := by
  unfold readPlain at read
  split at read
  · cases read
  · rename_i printable
    refine ⟨by simpa using printable, ?_⟩
    split at read
    · rename_i nothing
      exact Or.inl ⟨nothing, (Option.some.inj read).symm⟩
    · split at read
      · rename_i first
        obtain ⟨h, heading, rfl⟩ := Option.map_eq_some_iff.mp read
        exact Or.inr (Or.inl ⟨first, h, heading, rfl⟩)
      · dsimp only at read
        split at read
        · rename_i pair
          obtain ⟨key, value, rest⟩ := pair
          obtain ⟨v, -, rfl⟩ := Option.map_eq_some_iff.mp read
          refine Or.inr (Or.inr ⟨_, value, v, key, fun c hc => List.mem_takeWhile_imp hc, ?_, rfl⟩)
          rw [List.append_assoc, rest, List.takeWhile_append_dropWhile]
        · cases read

/-! ## Blanks -/

section Blank

variable {blank : Char → Bool}
  (visible : ∀ c, bare c ∨ c ∈ ['[', ']', '#', '=', '.'] → blank c = false)
include visible

omit visible in
theorem trimmed_eq (text : List Char) :
    Lines.trimmed blank text = (text.dropWhile blank).rdropWhile blank := rfl

omit visible in
/-- A text with visible ends stays whole at the front of another. -/
theorem trimmed_append (front : List Char) {c d : Char} (hc : blank c = false)
    (hd : blank d = false) (back : List Char) :
    Lines.trimmed blank (c :: front ++ [d] ++ back) =
      c :: front ++ [d] ++ back.rdropWhile blank := by
  have kept : ∀ back : List Char, (c :: front ++ [d] ++ back).rdropWhile blank =
      c :: front ++ [d] ++ back.rdropWhile blank := by
    intro back
    induction back using List.reverseRecOn with
    | nil =>
        rw [List.append_nil, List.rdropWhile_nil, List.append_nil,
          List.rdropWhile_concat_neg _ _ d (by simp [hd])]
    | append_singleton back e ih =>
        rw [← List.append_assoc]
        by_cases he : blank e = true
        · rw [List.rdropWhile_concat_pos _ _ e he, List.rdropWhile_concat_pos _ _ e he, ih]
        · rw [List.rdropWhile_concat_neg _ _ e he, List.rdropWhile_concat_neg _ _ e he,
            List.append_assoc]
  have first : (c :: front ++ [d] ++ back).dropWhile blank = c :: front ++ [d] ++ back :=
    List.dropWhile_cons_of_neg (by simp [hc])
  rw [trimmed_eq, first, kept]

theorem visible_inBrackets {c : Char} (h : inBrackets c) : blank c = false := by
  unfold inBrackets at h
  rw [Bool.or_eq_true, decide_eq_true_eq] at h
  rcases h with h | rfl
  · exact visible c (Or.inl h)
  · exact visible '.' (Or.inr (by simp))

omit visible in
/-- A line that begins with a visible character is not blank. -/
theorem trimmed_ne_nil {c : Char} (hc : blank c = false) (text : List Char) :
    Lines.trimmed blank (c :: text) ≠ [] := by
  intro empty
  have head := Lines.head?_trimmed hc text
  rw [empty] at head
  cases head

omit visible in
theorem head?_trimmed_eq (text : List Char) :
    (Lines.trimmed blank text).head? = (text.dropWhile blank).head? := by
  cases rest : text.dropWhile blank with
  | nil => simp [trimmed_eq, rest]
  | cons c more =>
      have visible_c : blank c = false := by
        have head := List.head?_dropWhile_not blank text
        rw [rest] at head
        exact head
      have again : Lines.trimmed blank text = Lines.trimmed blank (c :: more) := by
        rw [trimmed_eq, trimmed_eq, rest, List.dropWhile_cons_of_neg (by simp [visible_c])]
      rw [again, Lines.head?_trimmed visible_c, List.head?_cons]

/-- A line that says nothing begins with a space or a comment, if it is not blank. -/
theorem head?_of_nothing {line : List Char} (nothing : Toml.onlyTrailing line) :
    ∀ c ∈ (Lines.trimmed blank line).head?, c = ' ' ∨ c = '#' := by
  rw [head?_trimmed_eq]
  induction line with
  | nil => simp
  | cons c line ih =>
      by_cases hc : c = ' '
      · subst hc
        have rest : Toml.onlyTrailing line := by
          simpa [Toml.onlyTrailing, List.dropWhile_cons] using nothing
        by_cases space : blank ' ' = true
        · rw [List.dropWhile_cons_of_pos space]
          exact ih rest
        · rw [List.dropWhile_cons_of_neg space]
          simp
      · have comment : c = '#' := by
          simpa [Toml.onlyTrailing, List.dropWhile_cons, hc] using nothing
        subst comment
        rw [List.dropWhile_cons_of_neg (by simp [visible '#' (Or.inr (by simp))])]
        simp

/-- A key with its value begins with the key. -/
theorem trimmed_pair {key : List Char} (some_key : key ≠ []) (bare_key : ∀ c ∈ key, bare c)
    (value : List Char) : ∃ rest, Lines.trimmed blank (key ++ " = ".toList ++ value) =
      key ++ ' ' :: rest := by
  obtain ⟨c, key, rfl⟩ := List.exists_cons_of_ne_nil some_key
  have visible_c := visible c (Or.inl (bare_key c List.mem_cons_self))
  have equals : blank '=' = false := visible '=' (Or.inr (by simp))
  refine ⟨'=' :: (' ' :: value).rdropWhile blank, ?_⟩
  have whole := trimmed_append (key ++ [' ']) visible_c equals (' ' :: value)
  simpa using whole

/-- The key of a key with its value. -/
theorem takeWhile_trimmed_pair {key : List Char} (some_key : key ≠ [])
    (bare_key : ∀ c ∈ key, bare c) (value : List Char) :
    (Lines.trimmed blank (key ++ " = ".toList ++ value)).takeWhile
      (fun c => c ≠ '=' && c ≠ ' ') = key := by
  obtain ⟨rest, text⟩ := trimmed_pair visible some_key bare_key value
  rw [text, List.takeWhile_append_of_pos fun d hd => ?_]
  · simp
  · have bare_d := bare_key d hd
    have not_equals : d ≠ '=' := by
      rintro rfl
      exact absurd bare_d (by decide)
    simp [not_equals, (Toml.bare_ne bare_d).1]

/-- A line that begins with a bracket, blanks aside, is a header. -/
theorem readPlain_head {line : List Char} {s : Statement (Toml.Data ⊕ Bool)}
    (read : readPlain line = some s) (bracket : (Lines.trimmed blank line).head? = some '[') :
    ∃ h, s = .header h := by
  obtain ⟨-, ⟨nothing, -⟩ | ⟨-, h, -, rfl⟩ | ⟨key, value, v, some_key, bare_key, rfl, -⟩⟩ :=
    readPlain_eq_some read
  · rcases head?_of_nothing visible nothing '[' bracket with other | other
    · exact absurd other (by decide)
    · exact absurd other (by decide)
  · exact ⟨h, rfl⟩
  · obtain ⟨rest, text⟩ := trimmed_pair visible some_key bare_key value
    obtain ⟨c, key, rfl⟩ := List.exists_cons_of_ne_nil some_key
    rw [text] at bracket
    exact absurd (Option.some.inj bracket) (Toml.bare_ne (bare_key c List.mem_cons_self)).2.2.1

end Blank

theorem oneLine_of_printable {line : List Char} (printable : ∀ c ∈ line, Toml.control c = false) :
    Lines.OneLine line :=
  ⟨fun newline => absurd (printable _ newline) (by decide),
    fun last => absurd (printable _ (List.mem_of_getLast? last)) (by decide)⟩

/-! ## What is written -/

theorem control_bare {c : Char} (h : bare c) : Toml.control c = false := by
  have table : ∀ n < 128, bare (Char.ofNat n) → Toml.control (Char.ofNat n) = false := by
    decide +kernel
  rw [← Bool.not_eq_true]
  intro control
  have small : c.toNat < 128 := by
    simp only [Toml.control, Bool.or_eq_true, Bool.and_eq_true, decide_eq_true_eq] at control
    omega
  have none_such := table c.toNat small
  rw [Char.ofNat_toNat] at none_such
  rw [none_such h] at control
  cases control

theorem control_digit {c : Char} (h : c.isDigit) : Toml.control c = false := by
  apply control_bare
  simp [Toml.bare, Char.isAlphanum, h]

theorem control_style {c : Char} {style : Toml.Style} (h : style.Allowed c) :
    ∀ d ∈ style.text c, Toml.control d = false := by
  have digit : ∀ n < 16, Toml.control (Toml.hexDigit n) = false := by decide
  intro d hd
  cases style with
  | raw =>
      rw [List.mem_singleton.mp hd]
      exact h.2.2
  | letter l =>
      have letters : l = 'n' ∨ l = 't' ∨ l = 'r' ∨ l = '"' ∨ l = '\\' := by
        by_contra other
        simp only [not_or] at other
        simp [Toml.Style.Allowed, Toml.ofLetter, other] at h
      simp only [Toml.Style.text, List.mem_cons, List.not_mem_nil, or_false] at hd
      rcases hd with rfl | rfl
      · decide
      · rcases letters with rfl | rfl | rfl | rfl | rfl <;> decide
  | code =>
      simp only [Toml.Style.text, Toml.hex4, List.mem_cons, List.not_mem_nil, or_false] at hd
      rcases hd with rfl | rfl | rfl | rfl | rfl | rfl
      · decide
      · decide
      all_goals exact digit _ (Nat.mod_lt _ (by decide))

theorem control_value {v : Toml.Value} (h : v.WellFormed) : ∀ c ∈ v.text, Toml.control c = false := by
  intro c hc
  cases v with
  | str parts =>
      simp only [Toml.Value.text, List.mem_append, List.mem_cons, List.mem_flatMap,
        List.not_mem_nil, or_false] at hc
      rcases hc with (rfl | ⟨q, hq, hc⟩) | rfl
      · decide
      · exact control_style (h q hq) c hc
      · decide
  | int n => exact control_digit (Nat.isDigit_of_mem_toDigits (by decide) (by decide) hc)
  | decimal whole fraction =>
      simp only [Toml.Value.text, List.mem_append, List.mem_cons] at hc
      rcases hc with hc | rfl | hc
      · exact control_digit (h.2.2.1 c hc)
      · decide
      · exact control_digit (h.2.2.2.1 c hc)
  | empty =>
      simp only [Toml.Value.text, List.mem_cons, List.not_mem_nil, or_false] at hc
      rcases hc with rfl | rfl <;> decide

/-- A value does not begin as a flag does. -/
theorem readFlag_value {v : Toml.Value} (h : v.WellFormed) (rest : List Char) :
    readFlag (v.text ++ rest) = none := by
  have other : ∀ c ∈ (v.text ++ rest).head?, c ≠ 't' ∧ c ≠ 'f' := by
    have digit : ∀ c : Char, c.isDigit → c ≠ 't' ∧ c ≠ 'f' := by
      intro c hc
      refine ⟨?_, ?_⟩ <;> · rintro rfl; exact absurd hc (by decide)
    intro c hc
    cases v with
    | str parts =>
        simp [Toml.Value.text] at hc
        subst hc
        decide
    | int n =>
        obtain ⟨d, ds, digits⟩ := List.exists_cons_of_ne_nil (Nat.toDigits_ne_nil (n := n) (b := 10))
        have mem : d ∈ Nat.toDigits 10 n := by rw [digits]; simp
        simp [Toml.Value.text, digits] at hc
        subst hc
        exact digit _ (Nat.isDigit_of_mem_toDigits (by decide) (by decide) mem)
    | decimal whole fraction =>
        obtain ⟨d, ds, rfl⟩ := List.exists_cons_of_ne_nil h.1
        simp [Toml.Value.text] at hc
        subst hc
        exact digit _ (h.2.2.1 _ List.mem_cons_self)
    | empty =>
        simp [Toml.Value.text] at hc
        subst hc
        decide
  unfold readFlag
  have yes : ¬"true".toList <+: v.text ++ rest := by
    rintro ⟨more, text⟩
    rw [← text] at other
    exact (other 't' (by simp)).1 rfl
  have no : ¬"false".toList <+: v.text ++ rest := by
    rintro ⟨more, text⟩
    rw [← text] at other
    exact (other 'f' (by simp)).2 rfl
  rw [if_neg fun h => yes h.1, if_neg fun h => no h.1]

theorem control_pair {key : List Char} (bare_key : Toml.Bare key) :
    ∀ c ∈ key ++ " = ".toList, Toml.control c = false := by
  have equals : " = ".toList = [' ', '=', ' '] := by decide
  intro c hc
  rw [equals] at hc
  simp only [List.mem_append, List.mem_cons, List.not_mem_nil, or_false] at hc
  rcases hc with hc | rfl | rfl | rfl
  · exact control_bare (bare_key.2 c hc)
  all_goals decide

/-- A key with its value, whatever the value is. -/
theorem readPlain_entry {key entry : List Char} (bare_key : Toml.Bare key)
    (printable : ∀ c ∈ entry, Toml.control c = false) :
    readPlain (key ++ " = ".toList ++ entry) =
      (readEntry entry).map fun v => .pair [String.ofList key] v := by
  have equals : " = ".toList = [' ', '=', ' '] := by decide
  have clean : ¬(key ++ " = ".toList ++ entry).any Toml.control = true := by
    rw [Bool.not_eq_true, List.any_eq_false]
    intro c hc
    rw [Bool.not_eq_true]
    exact (List.mem_append.mp hc).elim (control_pair bare_key c) (printable c)
  have split : (key ++ " = ".toList ++ entry).takeWhile bare = key ∧
      (key ++ " = ".toList ++ entry).dropWhile bare = " = ".toList ++ entry := by
    have space : ¬bare ' ' = true := by decide
    rw [List.append_assoc, List.takeWhile_append_of_pos bare_key.2,
      List.dropWhile_append_of_pos bare_key.2, equals, List.cons_append,
      List.takeWhile_cons_of_neg space, List.dropWhile_cons_of_neg space, List.append_nil]
    exact ⟨rfl, rfl⟩
  obtain ⟨c, rest, rfl, bare_c⟩ := bare_key.cons
  obtain ⟨space, comment, bracket, -⟩ := Toml.bare_ne bare_c
  unfold readPlain
  rw [if_neg clean]
  simp only [split.1, split.2]
  simp only [List.cons_append]
  rw [Toml.not_onlyTrailing _ space comment]
  have begins : " = ".toList <+: " = ".toList ++ entry := List.prefix_append _ _
  have drop : (" = ".toList ++ entry).drop 3 = entry := by simp
  rw [drop]
  simp [bracket]

theorem readPlain_pair {key entry : List Char} {v : Toml.Data ⊕ Bool} (bare_key : Toml.Bare key)
    (printable : ∀ c ∈ entry, Toml.control c = false) (read : readEntry entry = some v) :
    readPlain (key ++ " = ".toList ++ entry) = some (.pair [String.ofList key] v) := by
  rw [readPlain_entry bare_key printable, read]
  rfl

theorem inBrackets_path {path : List (List Char)} (h : ∀ key ∈ path, Toml.Bare key) :
    ∀ c ∈ [ '.' ].intercalate path, inBrackets c := by
  induction path with
  | nil => simp
  | cons key path ih =>
      have first : ∀ c ∈ key, inBrackets c := fun c hc => by
        simp [inBrackets, (h key List.mem_cons_self).2 c hc]
      have rest := ih fun k hk => h k (List.mem_cons_of_mem _ hk)
      cases path with
      | nil => simpa using first
      | cons next path =>
          rw [List.intercalate_cons_cons]
          intro c hc
          simp only [List.mem_append, List.mem_singleton] at hc
          rcases hc with (hc | rfl) | hc
          · exact first c hc
          · decide
          · exact rest c hc

/-- A header, with its brackets around what it names. -/
theorem readPlain_header (array : Bool) {path : List (List Char)} (some_path : path ≠ [])
    (keys : ∀ key ∈ path, Toml.Bare key) :
    readPlain ((if array then ['[', '['] else ['[']) ++ [ '.' ].intercalate path ++
      if array then [']', ']'] else [']']) = some (.header (if array then
        .element (path.map String.ofList) else .table (path.map String.ofList))) := by
  have names := inBrackets_path keys
  have said := Toml.readPath_intercalate some_path keys
  obtain ⟨c, more, text, bare_c⟩ := Toml.intercalate_cons some_path keys
  have clean : ∀ d ∈ [ '.' ].intercalate path, Toml.control d = false := by
    intro d hd
    have inside := names d hd
    unfold inBrackets at inside
    rw [Bool.or_eq_true, decide_eq_true_eq] at inside
    rcases inside with bare_d | rfl
    · exact control_bare bare_d
    · decide
  have close : ¬inBrackets ']' = true := by decide
  have bracket : c ≠ '[' := (Toml.bare_ne bare_c).2.2.1
  have opening : ∀ t, Toml.onlyTrailing ('[' :: t) = false := fun t =>
    Toml.not_onlyTrailing t (by decide) (by decide)
  have plain_bracket : Toml.control '[' = false ∧ Toml.control ']' = false := by decide
  have none_control : ([ '.' ].intercalate path).any Toml.control = false := by
    rw [List.any_eq_false]
    intro d hd
    rw [clean d hd]
    decide
  have ended : Toml.onlyTrailing [] = true := by decide
  cases array with
  | true =>
      have take : ([ '.' ].intercalate path ++ [']', ']']).takeWhile inBrackets =
          [ '.' ].intercalate path := by
        rw [List.takeWhile_append_of_pos names, List.takeWhile_cons_of_neg close, List.append_nil]
      have drop : ([ '.' ].intercalate path ++ [']', ']']).dropWhile inBrackets = [']', ']'] := by
        rw [List.dropWhile_append_of_pos names, List.dropWhile_cons_of_neg close]
      have some_name : [ '.' ].intercalate path ≠ [] := by rw [text]; simp
      simp [readPlain, readHeading, take, drop, said, some_name, none_control, plain_bracket,
        opening, ended]
  | false =>
      have take : ([ '.' ].intercalate path ++ [']']).takeWhile inBrackets =
          [ '.' ].intercalate path := by
        rw [List.takeWhile_append_of_pos names, List.takeWhile_cons_of_neg close, List.append_nil]
      have drop : ([ '.' ].intercalate path ++ [']']).dropWhile inBrackets = [']'] := by
        rw [List.dropWhile_append_of_pos names, List.dropWhile_cons_of_neg close]
      have some_name : [ '.' ].intercalate path ≠ [] := by rw [text]; simp
      have single : ([ '.' ].intercalate path ++ [']']).take 1 ≠ ['['] := by
        rw [text]
        simp [bracket]
      simp [readPlain, readHeading, take, drop, said, some_name, none_control, plain_bracket,
        opening, ended, single]

/-! ## A document of its own -/

section Documents

variable {V : Type}

theorem topName_of_defines {d : Header × Statement V} {name : String} {more : List String}
    (h : defines d = some (name :: more)) : topName d = some name := by
  obtain ⟨header, statement⟩ := d
  cases header with
  | root =>
      cases statement with
      | pair key v =>
          have key_eq : key = name :: more := Option.some.inj h
          simp [topName, key_eq]
      | _ => cases h
  | table path =>
      cases path with
      | nil =>
          cases statement with
          | header next => cases h
          | _ => cases h
      | cons top path =>
          cases statement with
          | nothing => cases h
          | pair key v =>
              have path_eq : top :: path ++ key = name :: more := Option.some.inj h
              simp [topName, Header.path, (List.cons.inj path_eq).1]
          | header next =>
              have path_eq : top :: path = name :: more := Option.some.inj h
              simp [topName, Header.path, (List.cons.inj path_eq).1]
  | element path => cases statement <;> cases h

theorem WellDefined.sublist {ds es : List (Header × Statement V)} (h : WellDefined ds)
    (part : es.Sublist ds) : WellDefined es :=
  ⟨h.1.sublist (part.filterMap _), fun path mem fits =>
    h.2 path (part.subset mem) ((part.filterMap _).subset fits)⟩

/-- What is about no name does not define it. -/
theorem not_defined {ds : List (Header × Statement V)} {name : String}
    (free : ∀ d ∈ ds, topName d ≠ some name) : [name] ∉ ds.filterMap defines := by
  intro mem
  obtain ⟨d, hd, defined⟩ := List.mem_filterMap.mp mem
  exact free d hd (topName_of_defines defined)

theorem WellDefined.noted (ds : List (Header × Statement V)) :
    WellDefined ds ↔ WellDefined (ds.filter fun d => !d.2.isNothing) := by
  have same : (ds.filter fun d => !d.2.isNothing).filterMap defines = ds.filterMap defines := by
    rw [List.filterMap_filter]
    refine List.filterMap_congr fun d _ => ?_
    obtain ⟨header, statement⟩ := d
    cases statement with
    | nothing => rcases header with _ | (_ | _) | _ <;> rfl
    | _ => rfl
  unfold WellDefined
  rw [same]
  simp [Statement.isNothing]

theorem WellDefined.withKey {pre post : List (Header × Statement V)} {name : String} {v : V}
    (h : WellDefined (pre ++ post)) (free : ∀ d ∈ pre ++ post, topName d ≠ some name) :
    WellDefined (pre ++ (.root, .pair [name] v) :: post) := by
  have new := not_defined free
  have shape : (pre ++ (.root, .pair [name] v) :: post).filterMap defines =
      pre.filterMap defines ++ [name] :: post.filterMap defines := by
    rw [List.filterMap_append, List.filterMap_cons]
    rfl
  rw [List.filterMap_append] at new
  constructor
  · rw [shape]
    have old := h.1
    rw [List.filterMap_append] at old
    exact List.perm_middle.nodup_iff.mpr (List.nodup_cons.mpr ⟨new, old⟩)
  · intro path mem fits
    have elsewhere : (Header.element path, Statement.header (.element path)) ∈ pre ++ post := by
      simpa using mem
    rw [shape, List.mem_append, List.mem_cons] at fits
    rcases fits with fits | rfl | fits
    · exact h.2 path elsewhere (by rw [List.filterMap_append]; exact List.mem_append_left _ fits)
    · exact free _ elsewhere rfl
    · exact h.2 path elsewhere (by rw [List.filterMap_append]; exact List.mem_append_right _ fits)

theorem WellDefined.withElement {ds : List (Header × Statement V)} {name : String}
    (pairs : List (String × V)) (h : WellDefined ds) (free : ∀ d ∈ ds, topName d ≠ some name) :
    WellDefined (ds ++ (.element [name], .header (.element [name])) ::
      pairs.map fun e => (.element [name], .pair [e.1] e.2)) := by
  have shape : (ds ++ (.element [name], .header (.element [name])) ::
      pairs.map fun e => (Header.element [name], Statement.pair [e.1] e.2)).filterMap defines =
        ds.filterMap defines := by
    have entries : (pairs.map fun e => (Header.element [name], Statement.pair [e.1] e.2)).filterMap
        defines = ([] : List (List String)) := by
      rw [List.filterMap_eq_nil_iff]
      intro d hd
      obtain ⟨e, -, rfl⟩ := List.mem_map.mp hd
      rfl
    rw [List.filterMap_append, List.filterMap_cons, entries]
    exact List.append_nil _
  unfold WellDefined
  rw [shape]
  refine ⟨h.1, fun path mem => ?_⟩
  rcases List.mem_append.mp mem with mem | mem
  · exact h.2 path mem
  · rcases List.mem_cons.mp mem with same | mem
    · have path_eq : path = [name] := by simpa using same
      rw [path_eq]
      exact not_defined free
    · obtain ⟨e, -, other⟩ := List.mem_map.mp mem
      simp at other

end Documents

/-! ## The laws -/

section Laws

variable {blank : Char → Bool}
  (visible : ∀ c, bare c ∨ c ∈ ['[', ']', '#', '=', '.'] → blank c = false)
include visible

/-- A header without the blanks around it: the brackets and the name stay. -/
theorem readPlain_header_eq {l : List Char} {h : Header} (read : readPlain l = some (.header h)) :
    ∃ name t, name ≠ [] ∧ (∀ c ∈ name, inBrackets c) ∧
      (Lines.trimmed blank l = ['[', '['] ++ name ++ [']', ']'] ++ t ∧
          h = .element (Toml.readPath name) ∨
        Lines.trimmed blank l = ['['] ++ name ++ [']'] ++ t ∧
          h = .table (Toml.readPath name)) := by
  have opening : blank '[' = false := visible '[' (Or.inr (by simp))
  have closing : blank ']' = false := visible ']' (Or.inr (by simp))
  obtain ⟨-, ⟨-, other⟩ | ⟨first, h', heading, same⟩ | ⟨key, value, v, -, -, -, other⟩⟩ :=
    readPlain_eq_some read
  · cases other
  · cases same
    obtain ⟨name, t, some_name, inside, ⟨rfl, said⟩ | ⟨rfl, said⟩⟩ :=
      readHeading_eq_some first heading
    · refine ⟨name, t.rdropWhile blank, some_name, inside, Or.inl ⟨?_, said⟩⟩
      have whole := trimmed_append ('[' :: name ++ [']']) opening closing t
      simpa using whole
    · refine ⟨name, t.rdropWhile blank, some_name, inside, Or.inr ⟨?_, said⟩⟩
      have whole := trimmed_append name opening closing t
      simpa using whole
  · cases other

omit visible in
theorem inBrackets_ne {c : Char} (h : inBrackets c) : c ≠ '[' ∧ c ≠ ']' ∧ c ≠ ' ' := by
  refine ⟨?_, ?_, ?_⟩ <;> · rintro rfl; exact absurd h (by decide)

theorem plain_brackets {l : List Char} {h : Header} (read : readPlain l = some (.header h)) :
    (((Lines.trimmed blank l).dropWhile (· = '[')).dropWhile blank).head? ≠ some '[' := by
  obtain ⟨name, t, some_name, inside, shape⟩ := readPlain_header_eq visible read
  obtain ⟨c, name, rfl⟩ := List.exists_cons_of_ne_nil some_name
  have inside_c := inside c List.mem_cons_self
  have other : c ≠ '[' := (inBrackets_ne inside_c).1
  have visible_c := visible_inBrackets visible inside_c
  rcases shape with ⟨shape, -⟩ | ⟨shape, -⟩
  all_goals
    rw [shape]
    simp [other, visible_c]

theorem plain_element {l key : List Char} {h : Header} (read : readPlain l = some (.header h))
    (bare_key : Toml.Bare key)
    (text : (Lines.trimmed blank l).filter (· ≠ ' ') = '[' :: '[' :: key ++ [']', ']']) :
    h = .element [String.ofList key] := by
  obtain ⟨name, t, some_name, inside, shape⟩ := readPlain_header_eq visible read
  have spaceless : name.filter (fun c => !decide (c = ' ')) = name := List.filter_eq_self.mpr fun c hc => by
    simp [(inBrackets_ne (inside c hc)).2.2]
  have close : ∀ (ks more : List Char), (∀ c ∈ ks, c ≠ ']') →
      (ks ++ ']' :: more).takeWhile (· ≠ ']') = ks := by
    intro ks more plain_ks
    rw [List.takeWhile_append_of_pos fun c hc => by simp [plain_ks c hc]]
    simp
  rcases shape with ⟨shape, said⟩ | ⟨shape, said⟩
  · have names : name ++ ']' :: ']' :: t.filter (· ≠ ' ') = key ++ [']', ']'] := by
      rw [shape] at text
      simpa [List.filter_append, spaceless] using text
    have same : name = key := by
      have front := congrArg (List.takeWhile (· ≠ ']')) names
      rw [close name _ fun c hc => (inBrackets_ne (inside c hc)).2.1,
        close key _ fun c hc => ?_] at front
      · exact front
      · rintro rfl
        exact absurd (bare_key.2 _ hc) (by decide)
    have path : Toml.readPath ([ '.' ].intercalate [key]) = [key].map String.ofList :=
      Toml.readPath_intercalate (by simp) (by simpa using bare_key)
    rw [said, same]
    simpa using path
  · obtain ⟨c, name, rfl⟩ := List.exists_cons_of_ne_nil some_name
    have inside_c := inBrackets_ne (inside c List.mem_cons_self)
    rw [shape] at text
    simp [inside_c.2.2, inside_c.1] at text

theorem plain_key {l : List Char} {s : Statement (Toml.Data ⊕ Bool)} (read : readPlain l = some s)
    (bare_key : Toml.Bare ((Lines.trimmed blank l).takeWhile fun c => c ≠ '=' && c ≠ ' ')) :
    ∃ more v, s = .pair (String.ofList
      ((Lines.trimmed blank l).takeWhile fun c => c ≠ '=' && c ≠ ' ') :: more) v := by
  -- the line begins with the first character of the key
  obtain ⟨c, key, first, bare_c⟩ := bare_key.cons
  have head : (Lines.trimmed blank l).head? = some c := by
    cases text : Lines.trimmed blank l with
    | nil => simp [text] at first
    | cons d rest =>
        rw [text, List.takeWhile_cons] at first
        split at first
        · rw [List.head?_cons, (List.cons.inj first).1]
        · cases first
  obtain ⟨space, comment, bracket, -⟩ := Toml.bare_ne bare_c
  obtain ⟨-, ⟨nothing, -⟩ | ⟨opens, -⟩ | ⟨name, value, v, some_name, bare_name, rfl, rfl⟩⟩ :=
    readPlain_eq_some read
  · rcases head?_of_nothing visible nothing c head with other | other
    · exact absurd other space
    · exact absurd other comment
  · obtain ⟨tail, rfl⟩ := List.head?_eq_some_iff.mp opens
    rw [Lines.head?_trimmed (visible '[' (Or.inr (by simp)))] at head
    exact absurd (Option.some.inj head).symm bracket
  · rw [takeWhile_trimmed_pair visible some_name bare_name value]
    exact ⟨[], v, rfl⟩

omit visible in
theorem plain_line {l : Toml.Line} (h : l.WellFormed) :
    readPlain l.text = some (.ofItem .inl l.item) := by
  cases l with
  | comment text =>
      have printable : ¬text.any Toml.control = true := by
        rw [Bool.not_eq_true, List.any_eq_false]
        intro c hc
        rw [h.2 c hc]
        decide
      have nothing := Toml.onlyTrailing_of_trailing h
      simp [readPlain, Toml.Line.text, printable, nothing, Toml.Line.item, Statement.ofItem]
  | pair key value trailing =>
      obtain ⟨bare_key, formed, ends⟩ := h
      have printable : ∀ c ∈ value.text ++ trailing, Toml.control c = false := fun c hc =>
        (List.mem_append.mp hc).elim (control_value formed c) (ends.2 c)
      have entry : readEntry (value.text ++ trailing) = some (.inl value.data) := by
        unfold readEntry
        rw [readFlag_value formed, Toml.readValue_text formed (Toml.stops_of_trailing ends)]
        simp [Toml.onlyTrailing_of_trailing ends]
      have read := readPlain_pair bare_key printable entry
      simpa [Toml.Line.text, Toml.Line.item, Statement.ofItem] using read
  | table path =>
      have read := readPlain_header false h.1 h.2
      simpa [Toml.Line.text, Toml.Line.item, Statement.ofItem] using read
  | element path =>
      have read := readPlain_header true h.1 h.2
      simpa [Toml.Line.text, Toml.Line.item, Statement.ofItem] using read

omit visible in
theorem plain_flagged {key t : List Char} (b : Bool) (bare_key : Toml.Bare key)
    (ends : Toml.Trailing t) :
    readPlain (key ++ " = ".toList ++ (toString b).toList ++ t) =
      some (.pair [String.ofList key] (.inr b)) := by
  have printable : ∀ c ∈ (toString b).toList ++ t, Toml.control c = false := by
    have word : ∀ b : Bool, ∀ c ∈ (toString b).toList, Toml.control c = false := by decide
    exact fun c hc => (List.mem_append.mp hc).elim (word b c) (ends.2 c)
  have trailing := Toml.onlyTrailing_of_trailing ends
  have entry : readEntry ((toString b).toList ++ t) = some (.inr b) := by
    have flag : readFlag ((toString b).toList ++ t) = some b := by
      cases b with
      | true =>
          have word : (toString true).toList = "true".toList := by decide
          rw [word]
          simp [readFlag, trailing]
      | false =>
          have word : (toString false).toList = "false".toList := by decide
          rw [word]
          simp [readFlag, trailing]
    unfold readEntry
    rw [flag]
  have read := readPlain_pair bare_key printable entry
  rwa [List.append_assoc]

end Laws

/-- The reader of plain documents is lawful, whatever blanks there are besides visible
characters. -/
theorem plain_lawful {blank : Char → Bool}
    (visible : ∀ c, bare c ∨ c ∈ ['[', ']', '#', '=', '.'] → blank c = false) :
    plain.Lawful blank where
  started := rfl
  ends := by
    intro ls more s s' read read'
    match ls, read with
    | [line], _ =>
        cases more with
        | nil => rfl
        | cons m ms => cases read'
  clean := by
    intro ls s read l hl
    match ls, read with
    | [line], read =>
        rw [List.mem_singleton.mp hl]
        exact oneLine_of_printable (readPlain_eq_some read).1
  last := by
    intro ls l s read empty
    match ls, read with
    | [], read =>
        refine ⟨rfl, ?_⟩
        obtain ⟨-, ⟨-, nothing⟩ | ⟨first, -⟩ | ⟨key, value, v, some_key, bare_key, rfl, -⟩⟩ :=
          readPlain_eq_some read
        · exact nothing
        · obtain ⟨tail, rfl⟩ := List.head?_eq_some_iff.mp first
          exact absurd empty (trimmed_ne_nil (visible '[' (Or.inr (by simp))) tail)
        · obtain ⟨c, key, rfl⟩ := List.exists_cons_of_ne_nil some_key
          exact absurd empty (trimmed_ne_nil (visible c (Or.inl (bare_key c (by simp)))) _)
    | [m], read => cases read
    | m :: n :: ms, read => cases read
  header := by
    intro ls h read
    match ls, read with
    | [line], read =>
        refine ⟨line, rfl, ?_⟩
        obtain ⟨-, ⟨-, other⟩ | ⟨first, -⟩ | ⟨key, value, v, -, -, -, other⟩⟩ :=
          readPlain_eq_some read
        · cases other
        · obtain ⟨tail, rfl⟩ := List.head?_eq_some_iff.mp first
          exact Lines.head?_trimmed (visible '[' (Or.inr (by simp))) tail
        · cases other
  bracket := fun l s read first => readPlain_head visible read first
  brackets := fun l h read => plain_brackets visible read
  element := fun l h key read bare_key text => plain_element visible read bare_key text
  key := fun l s read bare_key _ => plain_key visible read bare_key
  line := fun l h => plain_line h
  flagged := fun key t b bare_key ends => plain_flagged b bare_key ends
  noted := WellDefined.noted
  without := fun ds name h => h.sublist List.filter_sublist
  withKey := fun pre post name v h _ free => h.withKey free
  withElement := fun ds name pairs h free _ => h.withElement pairs free

end Lss.Library.Statements
