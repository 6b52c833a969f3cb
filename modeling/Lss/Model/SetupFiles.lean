import Lss.Library.Readers
import Lss.Model.EngineEdit

/-!
# The files that setup writes

Every engine that was chosen gets a collector with a file of its own. A file that exists keeps its
settings and may stay as it is; a new one gets a port and a database by its number. At the end
`lss` is pointed at the ports. How TOML is read is a parameter, the reader of `Loader`, and so is
what the person answers. What is printed is left out.
-/

set_option autoImplicit false

namespace Lss.Model.Setup

open Lss.Library Lss.Library.Lines Lss.Library.Statements
open Toml (Header)

variable {V : Type}

/-! ## The file of a collector -/

/-- Where a collector answers and where it stores.
SOURCE: lss-core/src/config.rs:50-52 -/
structure CollectorConfig where
  listen : List String
  dbPath : String
deriving DecidableEq

/-- SOURCE: lss-core/src/config.rs:243-244 -/
def defaultListen : List String := ["127.0.0.1:8099"]

@[inherit_doc defaultListen]
def defaultDbPath : String := "~/.local/state/lss/lss.db"

/-- A reader of TOML, and whether a document is a file of a collector: every key is one that is
known and its value is of its type. -/
structure Loader (V : Type) extends Reader V where
  valid : List (Header × Statement V) → Bool

/-- The value of a key at the top. -/
def rootValue (ds : List (Header × Statement V)) (key : String) : Option V :=
  ds.findSome? fun d =>
    match d with
    | (.root, .pair [k] v) => if k = key then some v else none
    | _ => none

/-- A key that may be missing. -/
def setting {α : Type} (read : V → Option α) (otherwise : α) : Option V → Option α
  | some v => read v
  | none => some otherwise

/-- SOURCE: lss-core/src/config.rs:637-639 -/
def parseConfig (l : Loader V) (text : List Char) : Option CollectorConfig := do
  let ds ← l.statements text
  if l.valid ds then
    let listen ← setting l.texts defaultListen (rootValue ds "listen")
    let dbPath ← setting l.text defaultDbPath (rootValue ds "db_path")
    some ⟨listen, dbPath⟩
  else none

/-- The text behind the last colon, as a port. -/
def portOf (address : String) : Option ℕ :=
  parseCount (2 ^ 16) <|
    match rsplitOnce ':' address.toList with
    | some (_, port) => port
    | none => address.toList

namespace CollectorConfig

/-- SOURCE: lss-collector/src/detect.rs:117-119 -/
def ownPorts (c : CollectorConfig) : List ℕ := c.listen.filterMap portOf

/-- SOURCE: lss-core/src/setup.rs:308 -/
def port (c : CollectorConfig) : Option ℕ := c.listen.findSome? portOf

end CollectorConfig

/-- SOURCE: lss-core/src/setup.rs:305-309 -/
def listenPort (l : Loader V) (text : List Char) : Option ℕ :=
  (parseConfig l text).bind CollectorConfig.port

/-- The database of a new collector.
SOURCE: lss-core/src/setup.rs:227 -/
def stateDb (stateDir : String) (index : ℕ) : String :=
  String.ofList (stateDir.toList.rdropWhile (· = '/')) ++ "/lss-" ++ toString index ++ ".db"

/-- SOURCE: lss-core/src/setup.rs:224-241 -/
def newCollectorLines (choice : Option EngineChoice) (listenPort index : ℕ)
    (stateDir notifyCmd : String) : List (List Char) :=
  ["# written by lss setup (every key and its default: packaging/collector.toml.example)".toList,
    "listen = [\"127.0.0.1:".toList ++ (toString listenPort).toList ++ "\"]".toList] ++
  (if index ≠ 1 then ["db_path = ".toList ++ tomlStr (stateDb stateDir index)] else []) ++
  (if notifyCmd ≠ "" then ["alert_cmd = ".toList ++ tomlStr notifyCmd ++
    ("   # called as: alert_cmd <severity> <message>; " ++
      "hooks in alert.env next to this file").toList]
  else []) ++
  (caLine choice).toList ++ [[]] ++
  match choice with
  | some c => engineLines c
  | none =>
    [("# engine_url = \"auto\": the collector finds the LLM server by itself " ++
      "(lss-collector --detect)").toList]

/-- SOURCE: lss-core/src/setup.rs:222-242 -/
def newCollectorToml (choice : Option EngineChoice) (listenPort index : ℕ)
    (stateDir notifyCmd : String) : List Char :=
  joined (newCollectorLines choice listenPort index stateDir notifyCmd)

/-- SOURCE: lss-collector/src/setup_run.rs:477 -/
def ratesLines (ratesPath : String) : List (List Char) :=
  [[], "[rates]".toList, "path = ".toList ++ tomlStr ratesPath]

/-! ## The file of the screen -/

/-- SOURCE: lss-core/src/config.rs:544-552 -/
structure ServerEntry where
  name : String := ""
  url : String := ""
  benchSsh : String := ""

/-- SOURCE: lss-core/src/config.rs:526-542 -/
structure ClientConfig where
  url : String := ""
  theme : String := ""
  benchSsh : String := ""
  tempUnits : String := ""
  server : List ServerEntry := []

/-- SOURCE: lss-core/src/config.rs:546-551 -/
def ServerEntry.set (s : ServerEntry) (key value : String) : Option ServerEntry :=
  if key = "name" then some { s with name := value }
  else if key = "url" then some { s with url := value }
  else if key = "bench_ssh" then some { s with benchSsh := value }
  else none

namespace ClientConfig

/-- SOURCE: lss-core/src/config.rs:530-541 -/
def set (c : ClientConfig) (key value : String) : Option ClientConfig :=
  if key = "url" then some { c with url := value }
  else if key = "theme" then some { c with theme := value }
  else if key = "bench_ssh" then some { c with benchSsh := value }
  else if key = "temp_units" then some { c with tempUnits := value }
  else none

/-- A key of the last server. -/
def setServer (c : ClientConfig) (key value : String) : Option ClientConfig :=
  match c.server.getLast? with
  | some s => (s.set key value).map fun s => { c with server := c.server.dropLast ++ [s] }
  | none => none

/-- The servers as one value. -/
def serverOf (r : Reader V) (pairs : List (String × V)) : Option ServerEntry :=
  pairs.foldlM (fun s p => (r.text p.2).bind fun value => s.set p.1 value) {}

/-- One statement of the file; a key that is not known is an error. -/
def read (r : Reader V) (c : ClientConfig) (d : Header × Statement V) : Option ClientConfig :=
  match d with
  | (_, .nothing) => some c
  | (.root, .pair [key] v) =>
    if key = "server" then
      ((r.tables v).bind fun ts => ts.mapM (serverOf r)).map fun ss => { c with server := ss }
    else (r.text v).bind fun value => c.set key value
  | (.element ["server"], .header _) => some { c with server := c.server ++ [{}] }
  | (.element ["server"], .pair [key] v) => (r.text v).bind fun value => c.setServer key value
  | _ => none

end ClientConfig

/-- SOURCE: lss-core/src/config.rs:621-623 -/
def parseClientConfig (r : Reader V) (text : List Char) : Option ClientConfig :=
  (r.statements text).bind fun ds => ds.foldlM (ClientConfig.read r) {}

/-- SOURCE: lss-core/src/config.rs:619 -/
def defaultCollectorUrl : String := "http://127.0.0.1:8099"

/-- SOURCE: lss-core/src/config.rs:625-635 -/
def resolveUrl (c : ClientConfig) : String :=
  bareUrl (if trim c.url = "" then defaultCollectorUrl else trim c.url)

/-- SOURCE: lss-core/src/config.rs:559-567 -/
def hostOf (url : String) : String :=
  let rest := match splitOnce "://".toList url.toList with
    | some (_, rest) => rest
    | none => url.toList
  String.ofList (rest.takeWhile fun c => c ≠ '/' && c ≠ ':')

/-- The servers that the screen knows, each with its address, where no other one is given on the
command line.
SOURCE: lss-core/src/config.rs:554-603 -/
def servers (c : ClientConfig) : List (String × String) :=
  let listed := (c.server.filter fun s => trim s.url ≠ "").map fun s =>
    (if trim s.name = "" then hostOf s.url else trim s.name, bareUrl (trim s.url))
  if listed = [] then [(hostOf (resolveUrl c), resolveUrl c)] else listed

/-- The ports that the file of the screen names. -/
def namedPorts (r : Reader V) (text : List Char) : Option (List (Option ℕ)) :=
  (parseClientConfig r text).map fun c => (servers c).map fun s => portOf s.2

/-- What `lss` is pointed at.
SOURCE: lss-collector/src/setup_run.rs:510-518 -/
def lssToml : List (String × ℕ) → List (List Char)
  | [(_, port)] =>
    ["# written by lss setup".toList,
      "url = \"http://127.0.0.1:".toList ++ (toString port).toList ++ ['"']]
  | ports =>
    "# written by lss setup: one [[server]] per LLM server on this machine ([ and ] switch)".toList ::
      ports.flatMap fun p => [[], "[[server]]".toList, "name = ".toList ++ tomlStr p.1,
        "url = \"http://127.0.0.1:".toList ++ (toString p.2).toList ++ ['"']]

/-! ## Writing -/

/-- The files of the directory; the collectors are numbered from one. -/
inductive ConfigFile where
  | collector (index : ℕ)
  | lss
  | backup (of : ConfigFile) (now : ℤ)
deriving DecidableEq

/-- What can be read. -/
abbrev Files := ConfigFile → Option (List Char)

/-- One of the files, written. -/
def Files.set (files : Files) (f : ConfigFile) (text : List Char) : Files :=
  fun g => if g = f then some text else files g

/-- Whether files are replaced: the command line, and what the person answers about each file.
SOURCE: lss-collector/src/setup_run.rs:60-61 and 563 -/
structure Replacing where
  force : Bool
  yes : Bool
  interactive : Bool
  answer : ConfigFile → Bool

/-- SOURCE: lss-collector/src/setup_run.rs:563 -/
def Replacing.replaces (a : Replacing) (f : ConfigFile) : Bool :=
  a.force || (!a.yes && a.interactive && a.answer f)

/-- Where setup runs: `created` says whether the directory of settings can be made, `takes`
whether a file can be written, and the command for alerts is empty where it is not installed. -/
structure Site where
  stateDir : String
  notifyCmd : String
  ratesPath : String
  now : ℤ
  created : Bool
  takes : ConfigFile → Bool

/-- The file with its text, unless there is another one and it is not to be replaced: that one is
kept next to it. Also says whether the file holds the text now.
SOURCE: lss-collector/src/setup_run.rs:550-588 -/
def writeConfig (a : Replacing) (s : Site) (files : Files) (f : ConfigFile) (text : List Char)
    (secret : Bool) : Option (Files × Bool) :=
  match files f with
  | some old =>
    if old = text then if secret && !s.takes f then none else some (files, true)
    else if a.replaces f then
      if s.takes f then some ((files.set (.backup f s.now) old).set f text, true) else none
    else some (files, false)
  | none => if s.takes f then some (files.set f text, true) else none

/-- The first collector's own port.
SOURCE: lss-collector/src/setup_run.rs:46-47 -/
def basePort : ℕ := 8099

/-- The port of a new collector, counted in sixteen bits.
SOURCE: lss-collector/src/setup_run.rs:483 -/
def freshPort (i : ℕ) : ℕ := (basePort + i) % 2 ^ 16

/-- What is to be written for an engine.
SOURCE: lss-collector/src/setup_run.rs:484-491 -/
def newText (s : Site) (i : ℕ) (choice : Option EngineChoice) : Option (List Char) → List Char
  | some old => replaceEngine old choice
  | none => newCollectorToml choice (freshPort i) (i + 1) s.stateDir s.notifyCmd ++
      joined (ratesLines s.ratesPath)

/-- SOURCE: lss-collector/src/setup_run.rs:496 -/
def holdsKey (choice : Option EngineChoice) : Bool := choice.any fun c => trim c.apiKey ≠ ""

/-- SOURCE: lss-collector/src/setup_run.rs:507 -/
def serverName (choice : Option EngineChoice) : String :=
  match choice with
  | none => "this machine"
  | some c => match parseKind c.kind with
    | some k => kindName k
    | none => "engine"

section Write

variable (l : Loader V) (a : Replacing) (s : Site)

/-- One file for each engine, and the port of each.
SOURCE: lss-collector/src/setup_run.rs:479-509 -/
def writeCollectors (i : ℕ) :
    List (Option EngineChoice) → Files → Option (Files × List (String × ℕ))
  | [], files => some (files, [])
  | choice :: rest, files => do
    let path := ConfigFile.collector (i + 1)
    let text := newText s i choice (files path)
    let _ ← parseConfig l text
    let (files, _) ← writeConfig a s files path text (holdsKey choice)
    let onDisk := (files path).getD text
    let port := (listenPort l onDisk).getD (freshPort i)
    let (files, ports) ← writeCollectors (i + 1) rest files
    some (files, (serverName choice, port) :: ports)

/-- The files once setup is done; nothing where it ends otherwise.
SOURCE: lss-collector/src/setup_run.rs:466-524 -/
def writeSettings (choices : List (Option EngineChoice)) (files : Files) : Option Files := do
  if s.created then
    let (files, ports) ← writeCollectors l a s 0 choices files
    let (files, _) ← writeConfig a s files .lss (joined (lssToml ports)) false
    some files
  else none

end Write

end Lss.Model.Setup
