import Lss.Library.Lines
import Mathlib.Data.Rat.Defs
import Mathlib.Data.Nat.Notation
import Mathlib.Algebra.Group.Nat.Defs

/-!
# Documents of sections

The part of TOML that configuration files are written in: one line after the other, each a
comment, a key with a value, the header of a table or the header of a further element of an array
of tables. What a document says is its sections in order, each a header and the keys below it.

`read` reads such documents, and it reads back what a well-formed list of lines is written as.
-/

set_option autoImplicit false

namespace Lss.Library.Toml

/-! ## What a document says -/

inductive Data where
  | str (s : String)
  | int (n : ℕ)
  | decimal (v : ℚ)
  | empty
deriving DecidableEq

inductive Header where
  | root
  | table (path : List String)
  | element (path : List String)
deriving DecidableEq

namespace Header

def path : Header → List String
  | root => []
  | table path => path
  | element path => path

/-- The table that a header opens. -/
def opens : Header → Option (List String)
  | root => none
  | table path => some path
  | element _ => none

end Header

/-- The keys below a header. -/
structure Section where
  header : Header
  pairs : List (String × Data)
deriving DecidableEq

/-- What one line says. -/
inductive Item where
  | nothing
  | pair (key : String) (value : Data)
  | header (h : Header)
deriving DecidableEq

/-- The sections of some items, below a header with some keys already. -/
def sections (h : Header) (pairs : List (String × Data)) : List Item → List Section
  | [] => [⟨h, pairs⟩]
  | .nothing :: items => sections h pairs items
  | .pair key value :: items => sections h (pairs ++ [(key, value)]) items
  | .header next :: items => ⟨h, pairs⟩ :: sections next [] items

/-! ## How it is written -/

/-- How a character stands in a text between quotes. -/
inductive Style where
  | raw
  | letter (l : Char)
  | code
deriving DecidableEq

def hexDigit (n : ℕ) : Char := Nat.digitChar n |>.toUpper

/-- Four hexadecimal digits. -/
def hex4 (n : ℕ) : List Char :=
  [hexDigit (n / 4096 % 16), hexDigit (n / 256 % 16), hexDigit (n / 16 % 16), hexDigit (n % 16)]

/-- The letters that stand for a character behind a backslash. -/
def ofLetter (l : Char) : Option Char :=
  if l = 'n' then some '\n'
  else if l = 't' then some '\t'
  else if l = 'r' then some '\r'
  else if l = '"' then some '"'
  else if l = '\\' then some '\\'
  else none

/-- A character that may not stand as it is. -/
def control (c : Char) : Bool := (c.toNat < 32 && c ≠ '\t') || c.toNat = 127

def Style.text (c : Char) : Style → List Char
  | raw => [c]
  | letter l => ['\\', l]
  | code => '\\' :: 'u' :: hex4 c.toNat

def Style.Allowed (c : Char) : Style → Prop
  | raw => c ≠ '"' ∧ c ≠ '\\' ∧ control c = false
  | letter l => ofLetter l = some c
  | code => c.toNat < 65536

/-- A value as it is written. -/
inductive Value where
  | str (parts : List (Char × Style))
  | int (n : ℕ)
  | decimal (whole fraction : List Char)
  | empty
deriving DecidableEq

namespace Value

def text : Value → List Char
  | str parts => '"' :: (parts.flatMap fun p => p.2.text p.1) ++ ['"']
  | int n => Nat.toDigits 10 n
  | decimal whole fraction => whole ++ '.' :: fraction
  | empty => ['[', ']']

def data : Value → Data
  | str parts => .str (String.ofList (parts.map Prod.fst))
  | int n => .int n
  | decimal whole fraction =>
    .decimal (Nat.ofDigitChars 10 (whole ++ fraction) 0 / 10 ^ fraction.length)
  | empty => .empty

/-- A whole part has no zero in front. -/
def WellFormed : Value → Prop
  | str parts => ∀ p ∈ parts, p.2.Allowed p.1
  | int n => n < 2 ^ 63
  | decimal whole fraction =>
    whole ≠ [] ∧ fraction ≠ [] ∧ (∀ c ∈ whole, c.isDigit) ∧ (∀ c ∈ fraction, c.isDigit) ∧
      (whole.head? = some '0' → whole.length = 1)
  | empty => True

end Value

/-- A key that needs no quotes. -/
def bare (c : Char) : Bool := c.isAlphanum || c = '_' || c = '-'

def Bare (key : List Char) : Prop := key ≠ [] ∧ ∀ c ∈ key, bare c

/-- Blanks, and a comment behind them. -/
def Trailing (text : List Char) : Prop :=
  (text.dropWhile (· = ' ') = [] ∨ (text.dropWhile (· = ' ')).head? = some '#') ∧
    ∀ c ∈ text, control c = false

/-- A comment that is written out. -/
theorem Trailing.of_text {s : String} {text : List Char} (same : s = String.ofList text)
    (starts : (text.dropWhile (· = ' ')).head? = some '#')
    (printable : ∀ c ∈ text, control c = false) : Trailing s.toList := by
  rw [same, String.toList_ofList]
  exact ⟨Or.inr starts, printable⟩

/-- The same in two parts. -/
theorem Trailing.of_texts {s s' : String} {text text' : List Char} (same : s = String.ofList text)
    (same' : s' = String.ofList text')
    (starts : ((text ++ text').dropWhile (· = ' ')).head? = some '#')
    (printable : ∀ c ∈ text ++ text', control c = false) : Trailing (s ++ s').toList := by
  rw [String.toList_append, same, same', String.toList_ofList, String.toList_ofList]
  exact ⟨Or.inr starts, printable⟩

inductive Line where
  | comment (text : List Char)
  | pair (key : List Char) (value : Value) (trailing : List Char)
  | table (path : List (List Char))
  | element (path : List (List Char))
deriving DecidableEq

namespace Line

def text : Line → List Char
  | comment text => text
  | pair key value trailing => key ++ " = ".toList ++ value.text ++ trailing
  | table path => '[' :: [ '.' ].intercalate path ++ [']']
  | element path => '[' :: '[' :: [ '.' ].intercalate path ++ [']', ']']

def item : Line → Item
  | comment _ => .nothing
  | pair key value _ => .pair (String.ofList key) value.data
  | table path => .header (.table (path.map String.ofList))
  | element path => .header (.element (path.map String.ofList))

def WellFormed : Line → Prop
  | comment text => Trailing text
  | pair key value trailing => Bare key ∧ value.WellFormed ∧ Trailing trailing
  | table path => path ≠ [] ∧ ∀ key ∈ path, Bare key
  | element path => path ≠ [] ∧ ∀ key ∈ path, Bare key

end Line

/-- The text of some lines. -/
def text (lines : List Line) : String := String.ofList (lines.flatMap fun l => l.text ++ ['\n'])

/-- What some lines say. -/
def meaning (lines : List Line) : List Section := sections .root [] (lines.map Line.item)

/-- A document: nothing is defined twice. A key does not name what a header opens, a table is
opened once, and the elements of an array belong together. -/
structure Valid (lines : List Line) : Prop where
  wellFormed : ∀ l ∈ lines, l.WellFormed
  keys : ∀ s ∈ meaning lines, (s.pairs.map Prod.fst).Nodup
  opened : ∀ s ∈ meaning lines, ∀ p ∈ s.pairs, ∀ t ∈ meaning lines,
    ¬(s.header.path ++ [p.1]) <+: t.header.path
  tables : ((meaning lines).filterMap fun s => s.header.opens).Nodup
  elements : ∀ s ∈ meaning lines, ∀ t ∈ meaning lines, ∀ path,
    s.header = .element path → path <+: t.header.path → t.header = .element path

/-! ## Reading it back -/

def hexValue (c : Char) : Option ℕ := (List.range 16).find? fun n => hexDigit n = c

def readHex4 : List Char → Option (Char × List Char)
  | a :: b :: c :: d :: rest =>
    (hexValue a).bind fun a => (hexValue b).bind fun b => (hexValue c).bind fun c =>
      (hexValue d).map fun d => (Char.ofNat (a * 4096 + b * 256 + c * 16 + d), rest)
  | _ => none

/-- What stands behind a backslash. -/
def readEscape : List Char → Option (Char × List Char)
  | [] => none
  | l :: rest => if l = 'u' then readHex4 rest else (ofLetter l).map fun c => (c, rest)

/-- One character of a text between quotes, and what is left. -/
def readChar : List Char → Option (Char × List Char)
  | [] => none
  | c :: rest =>
    if c = '\\' then readEscape rest else if control c then none else some (c, rest)

/-- The characters up to the closing quote, given so much to read. -/
def readChars : ℕ → List Char → Option (List Char × List Char)
  | 0, _ => none
  | fuel + 1, text =>
    if text.head? = some '"' then some ([], text.tail)
    else (readChar text).bind fun c => (readChars fuel c.2).map fun s => (c.1 :: s.1, s.2)

def readNumber (text : List Char) : Option (Data × List Char) :=
  let whole := text.takeWhile Char.isDigit
  let rest := text.dropWhile Char.isDigit
  if whole = [] then none
  else if rest.head? = some '.' then
    let fraction := rest.tail.takeWhile Char.isDigit
    if fraction = [] then none
    else some (.decimal (Nat.ofDigitChars 10 (whole ++ fraction) 0 / 10 ^ fraction.length),
      rest.tail.dropWhile Char.isDigit)
  else some (.int (Nat.ofDigitChars 10 whole 0), rest)

def readValue : List Char → Option (Data × List Char)
  | '"' :: rest => (readChars (rest.length + 1) rest).map fun s => (.str (String.ofList s.1), s.2)
  | '[' :: ']' :: rest => some (.empty, rest)
  | text => readNumber text

/-- Nothing but blanks and a comment. -/
def onlyTrailing (text : List Char) : Bool :=
  let rest := text.dropWhile (· = ' ')
  rest = [] || rest.head? = some '#'

def readPath (text : List Char) : List String := (text.splitOn '.').map String.ofList

def readPair (line : List Char) : Option Item :=
  let key := line.takeWhile bare
  let rest := line.dropWhile bare
  if key = [] ∨ rest.take 3 ≠ " = ".toList then none
  else (readValue (rest.drop 3)).bind fun v =>
    if onlyTrailing v.2 then some (.pair (String.ofList key) v.1) else none

def readLine (line : List Char) : Option Item :=
  if onlyTrailing line then some .nothing
  else match line with
    | '[' :: '[' :: rest =>
      if rest.drop (rest.length - 2) = [']', ']'] then
        some (.header (.element (readPath (rest.take (rest.length - 2)))))
      else none
    | '[' :: rest =>
      if rest.drop (rest.length - 1) = [']'] then
        some (.header (.table (readPath (rest.take (rest.length - 1)))))
      else none
    | line => readPair line

/-- The sections of a text, when every line of it can be read. -/
def read (text : String) : Option (List Section) :=
  (((text.toList.splitOn '\n').dropLast).mapM readLine).map (sections .root [])

/-! ### A text between quotes -/

theorem hexValue_hexDigit : ∀ n < 16, hexValue (hexDigit n) = some n := by decide

theorem readHex4_hex4 {c : Char} (h : c.toNat < 65536) (rest : List Char) :
    readHex4 (hex4 c.toNat ++ rest) = some (c, rest) := by
  have digit : ∀ n, hexValue (hexDigit (n % 16)) = some (n % 16) := fun n =>
    hexValue_hexDigit _ (Nat.mod_lt _ (by decide))
  have high : c.toNat / 4096 % 16 = c.toNat / 4096 := by omega
  have sum : c.toNat / 4096 % 16 * 4096 + c.toNat / 256 % 16 * 256 + c.toNat / 16 % 16 * 16 +
      c.toNat % 16 = c.toNat := by omega
  show ((hexValue (hexDigit (c.toNat / 4096 % 16))).bind fun a => _) = _
  rw [digit, Option.bind_some, digit, Option.bind_some, digit, Option.bind_some, digit,
    Option.map_some, sum, Char.ofNat_toNat]
  rfl

theorem readChar_text {c : Char} {style : Style} (h : style.Allowed c) (rest : List Char) :
    readChar (style.text c ++ rest) = some (c, rest) := by
  cases style with
  | raw =>
      obtain ⟨_, hb, hc⟩ := h
      show (if c = '\\' then _ else _) = _
      rw [if_neg hb, if_neg (by rw [hc]; decide)]
      rfl
  | letter l =>
      have hu : l ≠ 'u' := by
        rintro rfl
        exact absurd h (by simp [Style.Allowed, ofLetter])
      have hl : ofLetter l = some c := h
      show (if l = 'u' then _ else _) = _
      rw [if_neg hu, hl]
      rfl
  | code => exact readHex4_hex4 h rest

theorem head_text {c : Char} {style : Style} (h : style.Allowed c) (rest : List Char) :
    (style.text c ++ rest).head? ≠ some '"' := by
  cases style with
  | raw => exact fun he => h.1 (Option.some.inj he)
  | letter l => exact fun he => absurd (Option.some.inj he) (by decide)
  | code => exact fun he => absurd (Option.some.inj he) (by decide)

theorem readChars_text {parts : List (Char × Style)} (h : ∀ p ∈ parts, p.2.Allowed p.1)
    (rest : List Char) {fuel : ℕ} (hf : parts.length < fuel) :
    readChars fuel ((parts.flatMap fun p => p.2.text p.1) ++ '"' :: rest) =
      some (parts.map Prod.fst, rest) := by
  induction parts generalizing fuel with
  | nil =>
      obtain ⟨fuel, rfl⟩ := Nat.exists_eq_succ_of_ne_zero (Nat.ne_of_gt hf)
      rfl
  | cons p parts ih =>
      obtain ⟨fuel, rfl⟩ := Nat.exists_eq_succ_of_ne_zero (Nat.ne_zero_of_lt hf)
      have hp := h p List.mem_cons_self
      have hparts := fun q hq => h q (List.mem_cons_of_mem _ hq)
      rw [List.flatMap_cons, List.append_assoc]
      unfold readChars
      rw [if_neg (head_text hp _), readChar_text hp, Option.bind_some,
        ih hparts (Nat.lt_of_succ_lt_succ hf)]
      rfl

theorem length_le_flatMap (parts : List (Char × Style)) :
    parts.length ≤ (parts.flatMap fun p => p.2.text p.1).length := by
  induction parts with
  | nil => exact Nat.le_refl _
  | cons p parts ih =>
      have one : 1 ≤ (p.2.text p.1).length := by
        cases p.2 with
        | raw => exact Nat.le_refl _
        | letter l => exact Nat.le_succ _
        | code => exact Nat.succ_le_succ (Nat.zero_le _)
      rw [List.flatMap_cons, List.length_append, List.length_cons]
      omega

/-! ### Values -/

/-- What a number ends at: neither a digit nor a point. -/
def Stops (rest : List Char) : Prop := ∀ c ∈ rest.head?, c.isDigit = false ∧ c ≠ '.'

theorem takeWhile_digits {ds rest : List Char} (hd : ∀ c ∈ ds, c.isDigit)
    (hr : ∀ c ∈ rest.head?, c.isDigit = false) :
    (ds ++ rest).takeWhile Char.isDigit = ds ∧ (ds ++ rest).dropWhile Char.isDigit = rest := by
  rw [List.takeWhile_append_of_pos hd, List.dropWhile_append_of_pos hd]
  cases rest with
  | nil => exact ⟨List.append_nil _, rfl⟩
  | cons c rest =>
      have hc : ¬c.isDigit = true := by rw [hr c rfl]; decide
      rw [List.takeWhile_cons_of_neg hc, List.dropWhile_cons_of_neg hc]
      exact ⟨List.append_nil _, rfl⟩

theorem readNumber_int (n : ℕ) {rest : List Char} (hr : Stops rest) :
    readNumber (Nat.toDigits 10 n ++ rest) = some (.int n, rest) := by
  have digits : ∀ c ∈ Nat.toDigits 10 n, c.isDigit := fun c hc =>
    Nat.isDigit_of_mem_toDigits (by decide) (by decide) hc
  obtain ⟨take, drop⟩ := takeWhile_digits digits fun c hc => (hr c hc).1
  have point : ¬rest.head? = some '.' := fun h => (hr '.' h).2 rfl
  unfold readNumber
  rw [take, drop]
  dsimp only
  rw [if_neg Nat.toDigits_ne_nil, if_neg point, Nat.ofDigitChars_ten_toDigits]

theorem readNumber_decimal {whole fraction : List Char}
    (h : (Value.decimal whole fraction).WellFormed) {rest : List Char} (hr : Stops rest) :
    readNumber (whole ++ '.' :: fraction ++ rest) =
      some ((Value.decimal whole fraction).data, rest) := by
  obtain ⟨hw, hf, dw, df, _⟩ := h
  rw [List.append_assoc, List.cons_append]
  have point : ∀ c ∈ ('.' :: (fraction ++ rest)).head?, c.isDigit = false := by
    intro c hc
    cases hc
    decide
  obtain ⟨take, drop⟩ := takeWhile_digits dw point
  obtain ⟨take', drop'⟩ := takeWhile_digits df fun c hc => (hr c hc).1
  have head : ('.' :: (fraction ++ rest)).head? = some '.' := rfl
  have tail : ('.' :: (fraction ++ rest)).tail = fraction ++ rest := rfl
  unfold readNumber
  rw [take, drop]
  dsimp only
  rw [if_neg hw, if_pos head, tail, take', drop', if_neg hf]
  rfl

theorem readValue_text {v : Value} (h : v.WellFormed) {rest : List Char} (hr : Stops rest) :
    readValue (v.text ++ rest) = some (v.data, rest) := by
  -- a number does not begin with a quote or a bracket
  have number : ∀ {ds : List Char} {tail : List Char}, ds ≠ [] → (∀ c ∈ ds, c.isDigit) →
      readValue (ds ++ tail) = readNumber (ds ++ tail) := by
    intro ds tail hne hd
    cases ds with
    | nil => exact absurd rfl hne
    | cons c ds =>
        have hc := hd c List.mem_cons_self
        have quote : c ≠ '"' := by rintro rfl; exact absurd hc (by decide)
        have bracket : c ≠ '[' := by rintro rfl; exact absurd hc (by decide)
        rw [List.cons_append]
        unfold readValue
        split
        · rename_i he
          exact absurd (List.cons.inj he).1 quote
        · rename_i he
          exact absurd (List.cons.inj he).1 bracket
        · rfl
  cases v with
  | str parts =>
      have fuel := length_le_flatMap parts
      have bound : parts.length <
          ((parts.flatMap fun p => p.2.text p.1) ++ '"' :: rest).length + 1 := by
        rw [List.length_append]
        omega
      show readValue ('"' :: (parts.flatMap fun p => p.2.text p.1) ++ ['"'] ++ rest) = _
      rw [List.cons_append, List.cons_append, List.append_assoc, List.singleton_append]
      show (readChars _ _).map _ = _
      rw [readChars_text h rest bound]
      rfl
  | int n =>
      show readValue (Nat.toDigits 10 n ++ rest) = _
      rw [number Nat.toDigits_ne_nil fun c hc =>
        Nat.isDigit_of_mem_toDigits (by decide) (by decide) hc]
      exact readNumber_int n hr
  | decimal whole fraction =>
      show readValue (whole ++ '.' :: fraction ++ rest) = _
      have split := readNumber_decimal h hr
      rw [List.append_assoc] at split ⊢
      rw [number h.1 h.2.2.1]
      exact split
  | empty => rfl

/-! ### Lines -/

theorem bare_ne {c : Char} (h : bare c) : c ≠ ' ' ∧ c ≠ '#' ∧ c ≠ '[' ∧ c ≠ '.' ∧ c ≠ '\n' := by
  refine ⟨?_, ?_, ?_, ?_, ?_⟩ <;> · rintro rfl; exact absurd h (by decide)

/-- The first character of a key, whatever follows it. -/
theorem Bare.cons {key : List Char} (h : Bare key) : ∃ c key', key = c :: key' ∧ bare c := by
  cases key with
  | nil => exact absurd rfl h.1
  | cons c key => exact ⟨c, key, rfl, h.2 c List.mem_cons_self⟩

theorem onlyTrailing_of_trailing {t : List Char} (h : Trailing t) : onlyTrailing t = true := by
  rcases h.1 with h | h
  · simp [onlyTrailing, h]
  · simp [onlyTrailing, h]

theorem not_onlyTrailing {c : Char} (text : List Char) (h₁ : c ≠ ' ') (h₂ : c ≠ '#') :
    onlyTrailing (c :: text) = false := by
  unfold onlyTrailing
  rw [List.dropWhile_cons_of_neg (by simpa using h₁)]
  simpa using h₂

/-- What follows a value ends a number. -/
theorem stops_of_trailing {t : List Char} (h : Trailing t) : Stops t := by
  intro c hc
  cases t with
  | nil => cases hc
  | cons d t =>
      obtain rfl : d = c := Option.some.inj hc
      by_cases hd : d = ' '
      · subst hd
        exact ⟨by decide, by decide⟩
      · have := h.1
        rw [List.dropWhile_cons_of_neg (by simpa using hd)] at this
        rcases this with h | h
        · cases h
        · obtain rfl : d = '#' := Option.some.inj h
          exact ⟨by decide, by decide⟩

theorem readPath_intercalate {path : List (List Char)} (hne : path ≠ [])
    (h : ∀ key ∈ path, Bare key) :
    readPath ([ '.' ].intercalate path) = path.map String.ofList := by
  unfold readPath
  rw [List.splitOn_intercalate _ _ hne]
  intro key hkey hdot
  exact (bare_ne ((h key hkey).2 _ hdot)).2.2.2.1 rfl

/-- A path begins with a key. -/
theorem intercalate_cons {path : List (List Char)} (hne : path ≠ [])
    (h : ∀ key ∈ path, Bare key) :
    ∃ c rest, [ '.' ].intercalate path = c :: rest ∧ bare c := by
  cases path with
  | nil => exact absurd rfl hne
  | cons key path =>
      obtain ⟨c, key', rfl, hc⟩ := (h key List.mem_cons_self).cons
      cases path with
      | nil => exact ⟨c, key', by simp, hc⟩
      | cons next path => exact ⟨c, _, by rw [List.intercalate_cons_cons]; rfl, hc⟩

theorem readPair_text {key : List Char} (hk : Bare key) {v : Value} (hv : v.WellFormed)
    {trailing : List Char} (ht : Trailing trailing) :
    readPair (key ++ " = ".toList ++ v.text ++ trailing) =
      some (.pair (String.ofList key) v.data) := by
  have eq : " = ".toList = [' ', '=', ' '] := by decide
  have blank : ¬bare ' ' = true := by decide
  rw [eq, List.append_assoc, List.append_assoc]
  unfold readPair
  rw [eq, List.takeWhile_append_of_pos hk.2, List.dropWhile_append_of_pos hk.2]
  rw [List.cons_append, List.takeWhile_cons_of_neg blank, List.dropWhile_cons_of_neg blank,
    List.append_nil]
  dsimp only
  rw [if_neg (by simp [hk.1])]
  show ((readValue (v.text ++ trailing)).bind _) = _
  rw [readValue_text hv (stops_of_trailing ht), Option.bind_some,
    if_pos (onlyTrailing_of_trailing ht)]

theorem readLine_text {l : Line} (h : l.WellFormed) : readLine l.text = some l.item := by
  cases l with
  | comment text =>
      unfold readLine
      rw [Line.text, if_pos (onlyTrailing_of_trailing h)]
      rfl
  | pair key value trailing =>
      obtain ⟨hk, hv, ht⟩ := h
      have read := readPair_text hk hv ht
      obtain ⟨c, key', rfl, hc⟩ := hk.cons
      obtain ⟨h₁, h₂, h₃, _⟩ := bare_ne hc
      simp only [List.cons_append] at read
      show readLine (c :: key' ++ " = ".toList ++ value.text ++ trailing) = _
      simp only [List.cons_append]
      unfold readLine
      rw [if_neg (by rw [not_onlyTrailing _ h₁ h₂]; decide)]
      split
      · rename_i he
        exact absurd (List.cons.inj he).1 h₃
      · rename_i he
        exact absurd (List.cons.inj he).1 h₃
      · exact read
  | table path =>
      obtain ⟨hne, hb⟩ := h
      have path_eq := readPath_intercalate hne hb
      obtain ⟨c, rest, hp, hc⟩ := intercalate_cons hne hb
      show readLine ('[' :: [ '.' ].intercalate path ++ [']']) = _
      rw [hp] at path_eq ⊢
      unfold readLine
      rw [List.cons_append, if_neg (by rw [not_onlyTrailing] <;> decide)]
      have h₃ := (bare_ne hc).2.2.1
      have length : (c :: rest ++ [']']).length - 1 = (c :: rest).length := by simp
      split
      · rename_i he
        exact absurd (List.cons.inj (List.cons.inj he).2).1 h₃
      · rename_i he
        obtain rfl := (List.cons.inj he).2
        rw [length, List.drop_left, if_pos rfl, List.take_left, path_eq]
        rfl
      · rename_i h
        exact absurd rfl (h (c :: rest ++ [']']))
  | element path =>
      obtain ⟨hne, hb⟩ := h
      have path_eq := readPath_intercalate hne hb
      show readLine ('[' :: '[' :: [ '.' ].intercalate path ++ [']', ']']) = _
      generalize [ '.' ].intercalate path = text at path_eq
      unfold readLine
      rw [List.cons_append, List.cons_append, if_neg (by rw [not_onlyTrailing] <;> decide)]
      show (if (text ++ [']', ']']).drop ((text ++ [']', ']']).length - 2) = [']', ']'] then
        some (Item.header (.element (readPath
          ((text ++ [']', ']']).take ((text ++ [']', ']']).length - 2))))) else none) = _
      have length : (text ++ [']', ']']).length - 2 = text.length := by simp
      rw [length, List.drop_left, if_pos rfl, List.take_left, path_eq]
      rfl

/-! ### Documents -/

theorem newline_not_mem_trailing {t : List Char} (h : ∀ c ∈ t, control c = false) : '\n' ∉ t :=
  fun hm => absurd (h _ hm) (by decide)

theorem newline_not_mem_digits {ds : List Char} (h : ∀ c ∈ ds, c.isDigit) : '\n' ∉ ds :=
  fun hm => absurd (h _ hm) (by decide)

theorem newline_not_mem_path {path : List (List Char)} (h : ∀ key ∈ path, Bare key) :
    '\n' ∉ [ '.' ].intercalate path := by
  induction path with
  | nil => exact List.not_mem_nil
  | cons key path ih =>
      have hkey : '\n' ∉ key := fun hm =>
        (bare_ne ((h key List.mem_cons_self).2 _ hm)).2.2.2.2 rfl
      have hpath := ih fun k hk => h k (List.mem_cons_of_mem _ hk)
      cases path with
      | nil => simpa using hkey
      | cons next path =>
          rw [List.intercalate_cons_cons]
          simp only [List.mem_append, not_or]
          exact ⟨⟨hkey, by decide⟩, hpath⟩

theorem newline_not_mem_style {c : Char} {style : Style} (h : style.Allowed c) :
    '\n' ∉ style.text c := by
  cases style with
  | raw =>
      intro hm
      rw [← List.mem_singleton.mp hm] at h
      exact absurd h.2.2 (by decide)
  | letter l =>
      intro hm
      rcases List.mem_cons.mp hm with hm | hm
      · exact absurd hm (by decide)
      · rw [← List.mem_singleton.mp hm] at h
        exact absurd h (by simp [Style.Allowed, ofLetter])
  | code =>
      have digit : ∀ n < 16, hexDigit n ≠ '\n' := by decide
      have digits : ∀ n, '\n' ≠ hexDigit (n % 16) := fun n =>
        (digit _ (Nat.mod_lt _ (by decide))).symm
      show '\n' ∉ '\\' :: 'u' :: hex4 c.toNat
      unfold hex4
      simp only [List.mem_cons, List.not_mem_nil, or_false, not_or]
      exact ⟨by decide, by decide, digits _, digits _, digits _, digits _⟩

theorem newline_not_mem_value {v : Value} (h : v.WellFormed) : '\n' ∉ v.text := by
  cases v with
  | str parts =>
      show '\n' ∉ '"' :: (parts.flatMap fun p => p.2.text p.1) ++ ['"']
      simp only [List.cons_append, List.mem_cons, List.mem_append, List.mem_flatMap,
        List.not_mem_nil, or_false, not_or, not_exists, not_and]
      exact ⟨by decide, fun p hp => newline_not_mem_style (h p hp), by decide⟩
  | int n =>
      exact newline_not_mem_digits fun c hc =>
        Nat.isDigit_of_mem_toDigits (by decide) (by decide) hc
  | decimal whole fraction =>
      show '\n' ∉ whole ++ '.' :: fraction
      simp only [List.mem_append, List.mem_cons, not_or]
      exact ⟨newline_not_mem_digits h.2.2.1, by decide, newline_not_mem_digits h.2.2.2.1⟩
  | empty => decide

theorem newline_not_mem_line {l : Line} (h : l.WellFormed) : '\n' ∉ l.text := by
  cases l with
  | comment text => exact newline_not_mem_trailing h.2
  | pair key value trailing =>
      have hkey : '\n' ∉ key := fun hm => (bare_ne (h.1.2 _ hm)).2.2.2.2 rfl
      show '\n' ∉ key ++ " = ".toList ++ value.text ++ trailing
      simp only [List.mem_append, not_or]
      exact ⟨⟨⟨hkey, by decide⟩, newline_not_mem_value h.2.1⟩, newline_not_mem_trailing h.2.2.2⟩
  | table path =>
      show '\n' ∉ '[' :: [ '.' ].intercalate path ++ [']']
      simp only [List.cons_append, List.mem_cons, List.mem_append, List.not_mem_nil, or_false,
        not_or]
      exact ⟨by decide, newline_not_mem_path h.2, by decide⟩
  | element path =>
      show '\n' ∉ '[' :: '[' :: [ '.' ].intercalate path ++ [']', ']']
      simp only [List.cons_append, List.mem_cons, List.mem_append, List.not_mem_nil, or_false,
        not_or]
      exact ⟨by decide, by decide, newline_not_mem_path h.2, by decide, by decide⟩

/-- Reading gives back what was written. -/
theorem read_text {lines : List Line} (h : ∀ l ∈ lines, l.WellFormed) :
    read (text lines) = some (meaning lines) := by
  have split : (lines.flatMap fun l => l.text ++ ['\n']).splitOn '\n' =
      lines.map Line.text ++ [[]] := by
    rw [← Lines.splitOn_joined, Lines.joined, List.flatMap_map]
    intro t ht
    obtain ⟨l, hl, rfl⟩ := List.mem_map.mp ht
    exact newline_not_mem_line (h l hl)
  have items : (lines.map Line.text).mapM readLine = some (lines.map Line.item) := by
    clear split
    induction lines with
    | nil => rfl
    | cons l lines ih =>
        have hl := readLine_text (h l List.mem_cons_self)
        have hlines := ih fun k hk => h k (List.mem_cons_of_mem _ hk)
        rw [List.map_cons, List.mapM_cons, hl, hlines]
        rfl
  unfold read text
  rw [String.toList_ofList, split, List.dropLast_concat, items]
  rfl

end Lss.Library.Toml
