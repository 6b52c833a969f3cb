import Mathlib.Data.List.DropRight
import Lss.Library.Lines
import Lss.Model.CostSetup
import Lss.Model.Engines
import Lss.Model.Query

/-!
# The setup wizard

The wizard finds the engine to watch, asks about it where someone can be asked, and tests the
address until it answers or is kept as it is. What it prints is left out; what it tests and what
the person decides is written down in a trail.
-/

set_option autoImplicit false

namespace Lss.Model.Setup

open Lss.Library Lss.Library.Lines

/-! ## Addresses -/

/-- The text before and behind the first place where some text stands. -/
def splitOnce (sep : List Char) : List Char → Option (List Char × List Char)
  | [] => none
  | c :: t =>
    if sep <+: c :: t then some ([], (c :: t).drop sep.length)
    else (splitOnce sep t).map fun p => (c :: p.1, p.2)

def hostChar (c : Char) : Bool := c.isAlphanum || ['.', '-', '_', '[', ']', ':'].contains c

/-- SOURCE: lss-core/src/setup.rs:61-76 -/
def finish (scheme : String) (host : List Char) (port : Option (List Char)) (path : List Char) :
    Except String String :=
  if host = [] then .error "the address has no host name - e.g. localhost:8000"
  else if ¬host.all hostChar then
    .error ("'" ++ String.ofList host ++ "' is not a host name or IP address")
  else
    let host := if lower host = "localhost".toList then "127.0.0.1".toList else host
    match port with
    | none => .ok (scheme ++ "://" ++ String.ofList (host ++ path))
    | some p =>
      match (parseCount (2 ^ 32) p).filter fun n => 1 ≤ n ∧ n ≤ 65535 with
      | some n =>
        .ok (scheme ++ "://" ++ String.ofList host ++ ":" ++ toString n ++ String.ofList path)
      | none =>
        .error ("'" ++ String.ofList p ++
          "' is not a port - a port is a number from 1 to 65535, e.g. 8000")

/-- The scheme of an address and what stands behind it. -/
def splitScheme (t : List Char) : Except String (String × List Char) :=
  if "https://".toList <+: lower t then .ok ("https", t.drop 8)
  else if "http://".toList <+: lower t then .ok ("http", t.drop 7)
  else
    match splitOnce "://".toList t with
    | some (scheme, _) =>
      .error ("'" ++ String.ofList scheme ++
        "://' is not an address lss can talk to - use http://host:port or https://host:port")
    | none => .ok ("http", t)

/-- The host and the port, and the path without what is pasted behind it. -/
def cutPath (rest : List Char) : List Char × List Char :=
  let path := (rest.dropWhile (· ≠ '/')).rdropWhile (· = '/')
  let path := if "/v1".toList <:+ path then path.take (path.length - 3) else path
  (rest.takeWhile (· ≠ '/'), if path = "/v1".toList then [] else path)

/-- What a person types, turned into the base address of an engine.
SOURCE: lss-core/src/setup.rs:8-59 -/
def normalizeUrl (input : String) : Except String String := do
  let t := (trim input).toList
  if t = [] then .error "type an address, e.g. localhost:8000 or 192.0.2.20:8000"
  else if t.any isBlank then
    .error ("'" ++ String.ofList t ++
      "' has a space in it - an address is one word, e.g. 192.0.2.20:8000")
  else
    let (scheme, rest) ← splitScheme t
    let (hostport, path) := cutPath rest
    let hostport := hostport.dropWhile (· = ':')
    -- just a port: this machine
    if hostport.all Char.isDigit then finish scheme "127.0.0.1".toList (some hostport) path
    else
      match hostport with
      | '[' :: inner =>
        match splitOnce [']'] inner with
        | none =>
          .error ("'" ++ String.ofList hostport ++ "': an IPv6 address needs its closing ]")
        | some (h, after) =>
          if after ≠ [] ∧ after.head? ≠ some ':' then
            .error ("'" ++ String.ofList hostport ++ "': expected :port after the ]")
          else finish scheme ('[' :: h ++ [']']) (if after = [] then none else some after.tail) path
      | _ =>
        match rsplitOnce ':' hostport with
        | some (h, p) => finish scheme h (some p) path
        | none => finish scheme hostport none path

/-! ## Kinds of engines -/

/-- SOURCE: lss-core/src/engine.rs:33-43 -/
def kindName : EngineKind → String
  | .sglang => "sglang"
  | .vllm => "vllm"
  | .llamaCpp => "llamacpp"
  | .ollama => "ollama"
  | .lmStudio => "lmstudio"
  | .tgi => "tgi"
  | .openAi => "openai"

/-- SOURCE: lss-core/src/engine.rs:58-70 -/
def parseKind (text : String) : Option EngineKind :=
  let t := String.ofList
    ((lower (trim text).toList).filter fun c => !(['.', '-', '_', ' '].contains c))
  if t = "sglang" then some .sglang
  else if t = "vllm" then some .vllm
  else if t = "llamacpp" ∨ t = "llamaserver" ∨ t = "llama" then some .llamaCpp
  else if t = "ollama" then some .ollama
  else if t = "lmstudio" then some .lmStudio
  else if t = "tgi" ∨ t = "textgenerationinference" then some .tgi
  else if t = "openai" ∨ t = "openaicompatible" ∨ t = "generic" then some .openAi
  else none

/-- The kinds in the order of the menu, the first being "not sure".
SOURCE: lss-collector/src/setup_run.rs:898-907 -/
def kindMenu : List (Option EngineKind) :=
  [none, some .sglang, some .vllm, some .llamaCpp, some .ollama, some .lmStudio, some .tgi,
    some .openAi]

/-! ## Talking to the person -/

/-- Where answers come from.
SOURCE: lss-collector/src/setup_run.rs:109-116 -/
structure Io where
  /-- false: every question takes its default -/
  interactive : Bool
  /-- the lines that are left; a line that cannot be read ends them -/
  lines : List String

namespace Io

def typed (default line : String) : String := if trim line = "" then default else trim line

/-- Ask; an empty line, no one to ask and the end of the input are all answered by the default.
SOURCE: lss-collector/src/setup_run.rs:146-171 -/
def ask (io : Io) (default : String) : String × Io :=
  if io.interactive then
    match io.lines with
    | [] => (default, { io with interactive := false })
    | line :: lines => (typed default line, { io with lines := lines })
  else (default, io)

section AskUntil

variable {α : Type}

-- what an answer is used as, and what is taken where not even the default can be used
variable (default : String) (use : String → Option α) (otherwise : α)

def readUntil : List String → α × Io
  | [] => ((use default).getD otherwise, ⟨false, []⟩)
  | line :: lines =>
    match use (typed default line) with
    | some a => (a, ⟨true, lines⟩)
    | none => readUntil lines

/-- Ask until an answer can be used. -/
def askUntil (io : Io) : α × Io :=
  if io.interactive then readUntil default use otherwise io.lines
  else ((use default).getD otherwise, io)

end AskUntil

/-- Ask until the address is one that can be used; where no one can be asked again, it is the
collector's own default.
SOURCE: lss-collector/src/setup_run.rs:878-896 -/
def askAddress (io : Io) (first : String) : String × Io :=
  match normalizeUrl first with
  | .ok u => (u, io)
  | .error _ => askUntil "" (fun t => (normalizeUrl t).toOption) "http://127.0.0.1:8000" io

/-- A number from the menu, or the name of a kind. -/
def readKind (answer : String) : Option (Option EngineKind) :=
  match (parseCount (2 ^ 64) answer.toList).bind fun i => kindMenu[i]? with
  | some kind => some kind
  | none => (parseKind answer).map some

/-- SOURCE: lss-collector/src/setup_run.rs:909-926 -/
def askKind (io : Io) (current : Option EngineKind) : Option EngineKind × Io :=
  if current.isSome ∧ ¬io.interactive then (current, io)
  else askUntil (toString (kindMenu.idxOf current)) readKind none io

end Io

/-! ## The file of the collector -/

/-- SOURCE: lss-core/src/config.rs:128-146 -/
structure EngineEntry where
  kind : String
  url : String
  apiKey : String
  tlsVerify : Option Bool

/-- What the wizard reads in the file of the collector.
SOURCE: lss-core/src/config.rs:6-60 -/
structure Config where
  sglangUrl : String
  engineKind : String
  engines : List EngineEntry
  tlsVerify : Bool
  tlsCaFile : String

/-- An address without the slashes at its end. -/
def bareUrl (url : String) : String := String.ofList (url.toList.rdropWhile (· = '/'))

namespace Config

/-- SOURCE: lss-core/src/config.rs:178-181 -/
def engineIsAuto (cfg : Config) : Bool :=
  cfg.engines.isEmpty && (trim cfg.sglangUrl = "" || trim cfg.sglangUrl = "auto")

/-- SOURCE: lss-core/src/config.rs:182-188 -/
def pinnedApiKey (cfg : Config) : String :=
  match cfg.engines.head? with
  | some e => trim e.apiKey
  | none => ""

/-- SOURCE: lss-core/src/config.rs:190-203 -/
def pinnedEngine (cfg : Config) : Option (Option EngineKind × String) :=
  match cfg.engines.head? with
  | some e => some (parseKind e.kind, bareUrl e.url)
  | none =>
    if cfg.engineIsAuto then none else some (parseKind cfg.engineKind, bareUrl cfg.sglangUrl)

end Config

/-- SOURCE: lss-core/src/config.rs:642-648 -/
def expandHome (path home : String) : String :=
  if "~/".toList <+: path.toList then bareUrl home ++ "/" ++ String.ofList (path.toList.drop 2)
  else if path = "~" then home
  else path

/-- SOURCE: lss-collector/src/tls.rs:25-36 -/
structure TlsOptions where
  /-- false: any certificate is accepted -/
  verify : Bool := true
  caFile : String := ""

/-- The engine of the file.
SOURCE: lss-collector/src/setup_run.rs:597-601 -/
structure Configured where
  url : String
  kind : Option EngineKind
  key : String

def configuredEngine (cfg : Option Config) : Option Configured := do
  let cfg ← cfg
  let (kind, url) ← cfg.pinnedEngine
  some ⟨url, kind, cfg.pinnedApiKey⟩

/-- The settings for certificates in the file: the file of authorities always, and no check only
for the same engine.
SOURCE: lss-collector/src/setup_run.rs:832-850 -/
def savedTls (home : String) (cfg : Option Config) (url : String) : TlsOptions :=
  match cfg with
  | none => {}
  | some cfg =>
    { caFile := if trim cfg.tlsCaFile = "" then "" else expandHome (trim cfg.tlsCaFile) home
      verify :=
        match cfg.engines.head?.filter fun e => bareUrl e.url = bareUrl url with
        | some e => e.tlsVerify.getD cfg.tlsVerify
        | none => cfg.tlsVerify }

/-! ## What the wizard needs from outside -/

/-- SOURCE: lss-core/src/setup.rs:85-99 -/
inductive HttpOutcome where
  | ok (body : String)
  | status (code : ℕ)
  | refused
  | timeout
  | noSuchHost
  | other (why : String)
deriving DecidableEq

def HttpOutcome.isCertificate : HttpOutcome → Bool
  | other why => decide ("TLS:".toList <+: why.toList)
  | _ => false

def HttpOutcome.isRefusal (o : HttpOutcome) : Bool := o = status 401 || o = status 403

/-- An engine that answered on this machine. -/
structure Found where
  kind : EngineKind
  url : String

/-- The parts that touch the machine; what is tested or read may answer differently each time.
SOURCE: lss-collector/src/setup_run.rs:336-351 -/
structure Env where
  scan : List Found
  /-- the models the engine names, at each live test -/
  test : ℕ → String → Option EngineKind → String → TlsOptions → Except HttpOutcome (List String)
  /-- the certificates in a file can be read, after so many tests -/
  rootStore : ℕ → String → Bool
  home : String

/-- The command line.
SOURCE: lss-collector/src/setup_run.rs:53-66 -/
structure Opts where
  url : Option String
  kind : Option String
  apiKey : Option String
  all : Bool

/-! ## The choice -/

/-- The engine as it will be written.
SOURCE: lss-core/src/setup.rs:175-187 -/
structure EngineChoice where
  kind : String
  url : String
  apiKey : String
  tlsVerify : Option Bool
  tlsCaFile : String
deriving DecidableEq

/-- SOURCE: lss-collector/src/setup_run.rs:388-393 -/
inductive Pick where
  | one (choice : EngineChoice)
  | all (choices : List EngineChoice)
  | auto
  | quit
deriving DecidableEq

/-- The address is changed, and the wizard goes on with what it held. -/
structure Edit where
  key : String
  verify : Bool
  newUrl : String
  /-- the key of the new address was asked for, and a line was read -/
  answered : Bool
deriving DecidableEq

inductive Event where
  /-- a key is typed for an address -/
  | keyTyped (url key : String)
  /-- a key is kept for an address on purpose -/
  | keyKept (url key : String)
  /-- the certificate of an address is not to be checked -/
  | waived (url : String)
  | edited (e : Edit)
  | tested (url key : String) (verify : Bool)
deriving DecidableEq

/-- What the wizard holds between two questions. -/
structure Session where
  io : Io
  url : String
  kind : Option EngineKind
  hint : Option EngineKind := none
  key : String
  /-- the address was typed as one of another machine -/
  typed : Bool := false
  tls : TlsOptions := {}
  caChosen : Bool := false
  tests : ℕ := 0
  trail : List Event := []

namespace Session

/-- SOURCE: lss-collector/src/setup_run.rs:728-735 -/
def choice (s : Session) : EngineChoice where
  kind := match s.kind with
    | some k => kindName k
    | none => "auto"
  url := s.url
  apiKey := s.key
  tlsVerify := if s.tls.verify then none else some false
  tlsCaFile := if s.caChosen then s.tls.caFile else ""

/-- The session goes on, or it ends with a pick. -/
abbrev Turn := Session × Option Pick

/-- The certificate is not trusted.
SOURCE: lss-collector/src/setup_run.rs:769-803 -/
def certificateMenu (env : Env) (s : Session) : Turn :=
  let (answer, io) := s.io.ask "c"
  match String.ofList (lower answer.toList) with
  | "c" =>
    let (path, io) := io.ask ""
    if path = "" then ({ s with io := io }, none)
    else
      let path := expandHome path env.home
      if env.rootStore s.tests path then
        ({ s with io := io, tls := { s.tls with caFile := path }, caChosen := true }, none)
      else ({ s with io := io }, none)
  | "i" =>
    ({ s with io := io, tls := { s.tls with verify := false },
              trail := s.trail ++ [.waived s.url] }, none)
  | "q" | "quit" => ({ s with io := io }, some .quit)
  | "k" | "keep" => ({ s with io := io }, some (.one s.choice))
  | "e" | "edit" =>
    let (answer, io) := io.ask s.url
    let (url, io) := io.askAddress answer
    let (kind, io) := io.askKind s.kind
    ({ s with io := io, url := url, kind := kind,
              trail := s.trail ++ [.edited ⟨s.key, s.tls.verify, url, false⟩] }, none)
  | _ => ({ s with io := io }, none)

/-- What becomes of the key when it is asked for again: it is taken away, typed or kept.
SOURCE: lss-collector/src/setup_run.rs:820-825 -/
def editKey (s : Session) : Session :=
  let (answer, io) := s.io.ask ""
  if answer = "-" then { s with io := io, key := "" }
  else if answer ≠ "" then
    { s with io := io, key := answer, trail := s.trail ++ [.keyTyped s.url answer] }
  else if io.interactive then
    { s with io := io, trail := s.trail ++ [.keyKept s.url s.key] }
  else { s with io := io }

/-- The address did not answer.
SOURCE: lss-collector/src/setup_run.rs:813-828 -/
def retryMenu (s : Session) : Turn :=
  let (answer, io) := s.io.ask "r"
  match String.ofList (lower answer.toList) with
  | "q" | "quit" => ({ s with io := io }, some .quit)
  | "k" | "keep" => ({ s with io := io }, some (.one s.choice))
  | "e" | "edit" =>
    let (answer, io) := io.ask s.url
    let (url, io) := io.askAddress answer
    let (kind, io) := io.askKind s.kind
    let answered := (io.ask "").2.interactive
    (editKey { s with io := io, url := url, kind := kind,
                      trail := s.trail ++ [.edited ⟨s.key, s.tls.verify, url, answered⟩] }, none)
  | _ => ({ s with io := io }, none)

/-- SOURCE: lss-collector/src/setup_run.rs:806-812 -/
def refusedMenu (s : Session) : Turn :=
  let (key, io) := s.io.ask ""
  if key ≠ "" then
    ({ s with io := io, key := key, trail := s.trail ++ [.keyTyped s.url key] }, none)
  else retryMenu { s with io := io }

/-- One round of the live test.
SOURCE: lss-collector/src/setup_run.rs:738-829 -/
def turn (env : Env) (s : Session) : Turn :=
  let models := env.test s.tests s.url (s.kind.or s.hint) s.key s.tls
  let s := { s with tests := s.tests + 1, trail := s.trail ++ [.tested s.url s.key s.tls.verify] }
  match models with
  | .ok _ => (s, some (.one s.choice))
  | .error o =>
    if ¬s.io.interactive then
      -- an address that was typed is never kept while it does not answer
      (s, some (if s.typed then .quit else .one s.choice))
    else if o.isCertificate then certificateMenu env s
    else if o.isRefusal then refusedMenu s
    else retryMenu s

/-- Rounds until there is a pick. -/
def liveTest (env : Env) : ℕ → Session → Option (Pick × List Event)
  | 0, _ => none
  | fuel + 1, s =>
    match turn env s with
    | (s, some pick) => some (pick, s.trail)
    | (s, none) => liveTest env fuel s

end Session

/-- Each of the engines found is tested once and gets a collector of its own.
SOURCE: lss-collector/src/setup_run.rs:863-875 -/
def allOf (found : List Found) : Pick × List Event :=
  (.all (found.map fun f => ⟨"auto", f.url, "", none, ""⟩),
    found.map fun f => .tested f.url "" true)

/-- An answer to the question which of the engines found should be watched. -/
inductive Answer where
  | quit
  | configured (url : String)
  | all
  | elsewhere
  | found (f : Found)

/-- SOURCE: lss-collector/src/setup_run.rs:681-711 -/
def readAnswer (found : List Found) (elsewhere : Option String) (answer : String) : Option Answer :=
  match String.ofList (lower answer.toList), elsewhere with
  | "q", _ | "quit", _ => some .quit
  | "c", some url => some (.configured url)
  | a, _ =>
    if (a = "a" ∨ a = "all") ∧ 1 < found.length then some .all
    else if a = "o" ∨ a = "other" ∨ a = "r" ∨ a = "remote" then some .elsewhere
    else
      match (parseCount (2 ^ 64) a.toList).bind fun n => if n = 0 then none else found[n - 1]? with
      | some f => some (.found f)
      | none => none

/-- An address was typed: what is it, and does it take a key?
SOURCE: lss-collector/src/setup_run.rs:654-657 and 696-699 -/
def askEngine (io : Io) (url : String) (kind : Option EngineKind) (key : String) : Session :=
  let (kind, io) := io.askKind kind
  if key = "" then
    let (key, io) := io.ask ""
    { io := io, url := url, kind := kind, key := key, typed := true, trail := [.keyTyped url key] }
  else { io := io, url := url, kind := kind, key := key, typed := true }

/-- The address of another machine; the configured one is offered again.
SOURCE: lss-collector/src/setup_run.rs:640-645 -/
def askElsewhere (current : Option Configured) (io : Io) : String × Io :=
  match current with
  | some cur => io.ask cur.url
  | none => if io.interactive then io.ask "" else ("", io)

/-- Nothing answered on this machine.
SOURCE: lss-collector/src/setup_run.rs:635-660 -/
def noneFound (current : Option Configured) (kind : Option EngineKind) (key : String) (io : Io) :
    Session ⊕ Pick :=
  let (answer, io) := askElsewhere current io
  if answer = "" then .inr .auto
  else
    let (url, io) := io.askAddress answer
    if current.all fun cur => cur.url ≠ url then .inl (askEngine io url kind key)
    else .inl { io := io, url := url, kind := kind, key := key, typed := true }

/-- Some engines answered on this machine; the configured one is the default.
SOURCE: lss-collector/src/setup_run.rs:661-713 -/
def someFound (found : List Found) (current : Option Configured) (kind : Option EngineKind)
    (key : String) (io : Io) : Session ⊕ (Pick × List Event) :=
  let position := current.bind fun cur => found.findIdx? fun f => f.url = cur.url
  let elsewhere := if position.isNone then current.map Configured.url else none
  let default := match position with
    | some i => toString (i + 1)
    | none => if elsewhere.isSome then "c" else "1"
  match io.askUntil default (readAnswer found elsewhere) .quit with
  | (.quit, _) => .inr (.quit, [])
  | (.configured url, io) => .inl { io := io, url := url, kind := kind, key := key }
  | (.all, _) => .inr (allOf found)
  | (.elsewhere, io) =>
    let (answer, io) := io.ask ""
    let (url, io) := io.askAddress answer
    .inl (askEngine io url kind key)
  | (.found f, io) => .inl { io := io, url := f.url, kind := kind, hint := some f.kind, key := key }

/-- The address, found or asked for.
SOURCE: lss-collector/src/setup_run.rs:608-714 -/
def findServer (o : Opts) (current : Option Configured) (env : Env) (io : Io) :
    Session ⊕ (Pick × List Event) :=
  let kind := (o.kind.filter fun k => k ≠ "auto").bind parseKind
  let key := o.apiKey.getD ""
  match o.url.map normalizeUrl with
  | some (.ok url) => .inl { io := io, url := url, kind := kind, key := key }
  | given =>
    if given.isSome ∧ ¬io.interactive then .inr (.quit, [])
    else if env.scan = [] then (noneFound current kind key io).map id fun pick => (pick, [])
    else if o.all ∧ 1 < env.scan.length then .inr (allOf env.scan)
    else someFound env.scan current kind key io

/-- The configured engine keeps its own kind and key unless new ones were given, and the settings
for certificates are those of the file.
SOURCE: lss-collector/src/setup_run.rs:715-730 -/
def prepare (cfg : Option Config) (env : Env) (s : Session) : Session :=
  let s := match (configuredEngine cfg).filter fun cur => cur.url = s.url with
    | some cur =>
      { s with kind := s.kind.or cur.kind, key := if s.key = "" then cur.key else s.key }
    | none => s
  { s with tls := savedTls env.home cfg s.url }

/-- SOURCE: lss-collector/src/setup_run.rs:603-830 -/
def choose (o : Opts) (cfg : Option Config) (env : Env) (io : Io) : Option (Pick × List Event) :=
  match findServer o (configuredEngine cfg) env io with
  | .inl s => Session.liveTest env (s.io.lines.length + 2) (prepare cfg env s)
  | .inr done => some done

end Lss.Model.Setup
