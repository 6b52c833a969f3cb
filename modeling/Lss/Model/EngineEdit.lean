import Lss.Model.SetupWizard

/-!
# The engine of a file of settings

When setup runs again, the engine part of the collector's file is replaced line by line: every
block of an engine goes, the keys at the top that name an engine go, and the block of the engine
that was chosen is put at the end. Nothing of the file is parsed for it.
-/

set_option autoImplicit false

namespace Lss.Model.Setup

open Lss.Library Lss.Library.Lines

/-- SOURCE: lss-core/src/setup.rs:194-199 -/
def tomlChar (c : Char) : List Char :=
  if c = '\\' then ['\\', '\\']
  else if c = '"' then ['\\', '"']
  else if c.toNat < 32 || c.toNat = 127 then '\\' :: 'u' :: upperHex4 c.toNat
  else [c]

/-- A text between quotes.
SOURCE: lss-core/src/setup.rs:189-203 -/
def tomlStr (s : String) : List Char := '"' :: s.toList.flatMap tomlChar ++ ['"']

/-- The lines of an engine's block behind its header.
SOURCE: lss-core/src/setup.rs:207-213 -/
def entryLines (c : EngineChoice) : List (List Char) :=
  ["kind = ".toList ++ tomlStr c.kind, "url = ".toList ++ tomlStr c.url] ++
  (if trim c.apiKey = "" then []
  else ["api_key = ".toList ++ tomlStr (trim c.apiKey) ++
    "   # a secret: this file is readable by you only (0600)".toList]) ++
  if c.tlsVerify = some false then
    [("tls_verify = false   # its certificate is NOT checked (you chose this in lss setup); " ++
      "tls_ca_file is the safer fix").toList]
  else []

def engineLines (c : EngineChoice) : List (List Char) := "[[engine]]".toList :: entryLines c

/-- The block of an engine, every line of it with its end.
SOURCE: lss-core/src/setup.rs:205-215 -/
def engineBlock (c : EngineChoice) : List Char := joined (engineLines c)

/-- The certificate file that a choice names.
SOURCE: lss-core/src/setup.rs:219 -/
def caFile (choice : Option EngineChoice) : Option String :=
  (choice.map fun c => trim c.tlsCaFile).filter (· ≠ "")

/-- SOURCE: lss-core/src/setup.rs:217-220 -/
def caLine (choice : Option EngineChoice) : Option (List Char) :=
  (caFile choice).map fun p => "tls_ca_file = ".toList ++ tomlStr p ++
    "   # the https engine's certificate or its CA (lss setup)".toList

/-! ## One line -/

/-- A line without the blanks at its ends. -/
def bareLine (line : List Char) : List Char := trimmed isBlank line

def blankLine (line : List Char) : Bool := bareLine line = []

/-- Whether a line counts as a header.
SOURCE: lss-core/src/setup.rs:256-257 -/
def opensTable (line : List Char) : Bool := (bareLine line).head? = some '['

/-- Whether a header counts as that of an engine.
SOURCE: lss-core/src/setup.rs:268 -/
def namesEngine (line : List Char) : Bool :=
  let t := bareLine line
  "[engine]".toList <+: (t.dropWhile (· = '[')).dropWhile isBlank ||
    t.filter (· ≠ ' ') = "[[engine]]".toList

/-- What counts as the key of a line.
SOURCE: lss-core/src/setup.rs:277 -/
def keyOf (line : List Char) : List Char :=
  (bareLine line).takeWhile fun c => c ≠ '=' && c ≠ ' '

/-- The keys at the top that name an engine.
SOURCE: lss-core/src/setup.rs:278 -/
def engineKeys : List String := ["engine_url", "sglang_url", "engine_kind"]

/-- Whether a line at the top is left out; the certificate file only when the choice names one.
SOURCE: lss-core/src/setup.rs:276-284 -/
def givesEngine (named : Bool) (line : List Char) : Bool :=
  ((engineKeys.map String.toList).contains (keyOf line) ||
    (keyOf line = "tls_ca_file".toList && named)) && (bareLine line).contains '='

/-! ## The edit -/

/-- Lines without the blank ones at the end. -/
def popBlank (out : List (List Char)) : List (List Char) := out.rdropWhile blankLine

structure Scan where
  out : List (List Char) := []
  inEngine : Bool := false
  topLevel : Bool := true

/-- The certificate file must stand before the first table.
SOURCE: lss-core/src/setup.rs:258-266 -/
def placeCa (ca : Option (List Char)) (s : Scan) : List (List Char) :=
  match ca with
  | some l => if s.topLevel then popBlank s.out ++ [l, []] else s.out
  | none => s.out

/-- SOURCE: lss-core/src/setup.rs:255-286 -/
def scanStep (ca : Option (List Char)) (s : Scan) (line : List Char) : Scan :=
  if opensTable line then
    if namesEngine line then ⟨placeCa ca s, true, false⟩ else ⟨placeCa ca s ++ [line], false, false⟩
  else if s.inEngine then s
  else if s.topLevel && givesEngine ca.isSome line then s
  else { s with out := s.out ++ [line] }

/-- The lines that stay, and the certificate file among them.
SOURCE: lss-core/src/setup.rs:251-296 -/
def editLines (ca : Option (List Char)) (lines : List (List Char)) : List (List Char) :=
  let s := lines.foldl (scanStep ca) {}
  popBlank (if s.topLevel then s.out ++ ca.toList else s.out)

/-- SOURCE: lss-core/src/setup.rs:244-303 -/
def replaceEngine (existing : List Char) (choice : Option EngineChoice) : List Char :=
  ['\n'].intercalate (editLines (caLine choice) (lines existing)) ++ ['\n'] ++
    match choice with
    | some c => '\n' :: engineBlock c
    | none => []

end Lss.Model.Setup
