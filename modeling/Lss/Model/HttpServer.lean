import Mathlib.Logic.Function.Basic
import Lss.Library.Machine
import Lss.Model.GateLog
import Lss.Model.Maintenance

/-!
# The collector's HTTP server

One thread for each address that the collector listens on. What a client reads is rendered by the
poll loop beforehand, or it is a question to the history, the answers to which a thread keeps for two
seconds. A few requests make the collector do something; they are for this machine only. The bytes of
answers are left out where they are a document: its fields are kept.
-/

set_option autoImplicit false

namespace Lss.Model.HttpServer

open Lss.Model

/-! ## Requests -/

/-- The address of a peer. -/
inductive Ip where
  | v4 (a b c d : UInt8)
  | v6 (bits : BitVec 128)

/-- `127.0.0.0/8` and `::1`. -/
def Ip.isLoopback : Ip → Bool
  | v4 a _ _ _ => a = 127
  | v6 bits => bits = 1

inductive Method where
  | get
  | head
  | post
  | other
deriving DecidableEq

structure Request where
  peer : Option Ip
  method : Method
  url : String
  body : List UInt8 := []

/-- What stands before the query.
SOURCE: lss-collector/src/http.rs:46 -/
def pathOf (url : String) : String := String.ofList (url.toList.takeWhile (· ≠ '?'))

/-- The body as a text, no further than a limit. Nothing is read where the bytes up to there are no
text, as when the limit cuts a character.
SOURCE: lss-collector/src/http.rs:48-49, 52-53, 57-58 -/
def readText (limit : ℕ) (body : List UInt8) : String :=
  (String.fromUTF8? ⟨(body.take limit).toArray⟩).getD ""

/-! ## Answers -/

/-- A value of a document. -/
inductive Value where
  | null
  | bool (b : Bool)
  | int (n : ℤ)
  | str (s : String)
deriving DecidableEq

/-- A text, or the fields of a document. -/
inductive Body where
  | text (s : String)
  | doc (fields : List (String × Value))
deriving DecidableEq

structure Answer where
  code : ℕ
  contentType : String := "application/json"
  body : Body
deriving DecidableEq

/-- A document that says what is wrong.
SOURCE: lss-collector/src/http.rs:126, 129, 133, 137 -/
def errorAnswer (code : ℕ) (text : String) : Answer :=
  { code := code, body := .doc [("error", .str text)] }

/-- SOURCE: lss-collector/src/http.rs:149, 154, 168 -/
def refusal (code : ℕ) (message : String) : Answer :=
  { code := code, body := .doc [("v", .int 1), ("ok", .bool false), ("message", .str message)] }

/-! ## What is shared -/

/-- What the poll loop has rendered.
SOURCE: lss-collector/src/main.rs:87-116 -/
structure Published where
  statusJson : String := ""
  metricsText : String := ""
  lastSampleTs : ℤ := 0
  rulesJson : String := ""
  gateOpen : Option (ℤ × LogDelta) := none
  loadoutsJson : String := ""
  tokensJson : String := ""
  adviceJson : String := ""
  benchJson : String := ""

/-- What the threads share; `bench` is the benchmark's part.
SOURCE: lss-collector/src/main.rs:87-121 -/
structure Shared (β : Type) where
  published : Published := {}
  testAlerts : List String := []
  maintenance : MaintenanceState := {}
  bench : β

/-- What is asked of the benchmark. -/
inductive BenchCall (ρ : Type) where
  | start (req : ρ)
  | cancel
  | compare (a b : String)

/-- What a thread keeps: whether its connection is open, and the answers of the last two seconds,
each with the URL it was asked for and when. -/
structure Listener where
  reader : Bool := false
  cache : List (String × ℤ × ℕ × String) := []

/-- The server as the threads find it: what each listens on, what the database says at each moment,
how bodies are read, and what the benchmark does. -/
structure Env (ℓ β ρ : Type) where
  listenerIsLoopback : ℓ → Bool
  /-- the error of opening the database -/
  opens : ℤ → Option String
  /-- the answer to a question about the history -/
  history : Option (ℤ × LogDelta) → String → ℤ → ℕ × String
  benchRequest : String → Except String ρ
  accuracyPair : String → String × String
  maintenanceRequest : String → Except String (String × ℕ)
  bench : β → ℤ → BenchCall ρ → β × ℕ × Body
  version : String

section

variable {ℓ β ρ : Type}

/-! ## What makes the collector do something -/

/-- SOURCE: lss-collector/src/http.rs:32 -/
def testAlertMaxChars : ℕ := 300

/-- SOURCE: lss-collector/src/http.rs:33 -/
def testAlertMaxPending : ℕ := 5

/-- SOURCE: lss-core/src/rules.rs:374 -/
def ruleTestAlert : String := "test_alert"

/-- `char::is_control`. -/
def isControl (c : Char) : Bool := c.toNat < 32 || (127 ≤ c.toNat && c.toNat < 160)

/-- The message of a test alert.
SOURCE: lss-collector/src/http.rs:131 -/
def alertText (body : String) : String :=
  let flat := String.ofList (body.toList.map fun c => if isControl c then ' ' else c)
  String.ofList ((trim flat).toList.take testAlertMaxChars)

/-- SOURCE: lss-collector/src/http.rs:125, 148, 177 -/
def fromHere (listenerIsLoopback : Bool) (peer : Option Ip) : Bool :=
  listenerIsLoopback && peer.any Ip.isLoopback

/-- SOURCE: lss-collector/src/http.rs:124-141 -/
def testAlert (listenerIsLoopback : Bool) (peer : Option Ip) (isPost : Bool) (body : String)
    (s : Shared β) : Shared β × Answer :=
  if fromHere listenerIsLoopback peer = false then
    (s, errorAnswer 403 "test-alert is only accepted on 127.0.0.1, from this machine")
  else if isPost = false then
    (s, errorAnswer 405 "POST the message as the request body")
  else
    let msg := alertText body
    if msg = "" then (s, errorAnswer 400 "empty message")
    else if testAlertMaxPending ≤ s.testAlerts.length then
      (s, errorAnswer 429 "too many test alerts pending")
    else
      ({ s with testAlerts := s.testAlerts ++ [msg] },
       { code := 202
         body := .doc [("queued", .bool true), ("rule", .str ruleTestAlert),
           ("message", .str ("[TEST] " ++ msg))] })

/-- A body without anything is an empty document.
SOURCE: lss-collector/src/http.rs:153, 184 -/
def orEmpty (body : String) : String := if trim body = "" then "\x7b\x7d" else body

/-- SOURCE: lss-collector/src/http.rs:146-170 -/
def benchPost (e : Env ℓ β ρ) (path : String) (listenerIsLoopback : Bool) (peer : Option Ip)
    (body : String) (now : ℤ) (s : Shared β) : Shared β × Answer :=
  let call (c : BenchCall ρ) : Shared β × Answer :=
    let done := e.bench s.bench now c
    ({ s with bench := done.1 }, { code := done.2.1, body := done.2.2 })
  if fromHere listenerIsLoopback peer = false then
    (s, refusal 403 ("a benchmark can only be started on the GPU box itself (127.0.0.1): " ++
      "run `lss bench` there, or over ssh"))
  else if path = "/bench" then
    match e.benchRequest (orEmpty body) with
    | .ok req => call (.start req)
    | .error why =>
      (s, refusal 400 ("the request body is not the JSON `lss bench` sends: " ++ why))
  else if path = "/bench/cancel" then call .cancel
  else if path = "/bench/compare-accuracy" then
    call (.compare (e.accuracyPair body).1 (e.accuracyPair body).2)
  else (s, refusal 404 "not found")

/-- SOURCE: lss-core/src/maintenance.rs:30-34 -/
def replyBody (r : MaintenanceReply) : Body :=
  .doc [("ok", .bool r.ok), ("message", .str r.message), ("expires_at", .int r.expiresAt)]

/-- SOURCE: lss-collector/src/http.rs:175-197 -/
def maintenancePost (e : Env ℓ β ρ) (path : String) (listenerIsLoopback : Bool) (peer : Option Ip)
    (body : String) (now : ℤ) (s : Shared β) : Shared β × Answer :=
  let refused (code : ℕ) (message : String) : Answer :=
    { code := code, body := .doc [("ok", .bool false), ("message", .str message)] }
  if fromHere listenerIsLoopback peer = false then
    (s, refused 403 ("maintenance mode can only be changed on the GPU box itself (127.0.0.1): " ++
      "run `lss maintenance` there, or over ssh"))
  else if path = "/maintenance/start" then
    match e.maintenanceRequest (orEmpty body) with
    | .ok (reason, minutes) =>
      let started := s.maintenance.start now reason minutes
      ({ s with maintenance := started.1 },
       { code := if started.2.ok then 200 else 400, body := replyBody started.2 })
    | .error why =>
      (s, refused 400 ("the request body is not the JSON `lss maintenance start` sends: " ++ why))
  else if path = "/maintenance/stop" then
    let stopped := s.maintenance.stop now
    match stopped.2 with
    | some reply => ({ s with maintenance := stopped.1 }, { code := 200, body := replyBody reply })
    | none =>
      ({ s with maintenance := stopped.1 },
       { code := 200
         body := .doc [("ok", .bool false), ("message", .str "no maintenance window is open"),
           ("expires_at", .int 0)] })
  else (s, refused 404 "not found")

/-! ## What is only read -/

/-- SOURCE: lss-collector/src/http.rs:30-31 -/
def staleSecs : ℤ := 30

/-- SOURCE: lss-collector/src/http.rs:216 -/
def indexText : String :=
  "lss-collector: /status /rules /loadouts /tokens /advice /bench (JSON, schema v1)  " ++
    "/series?metrics=a,b&range=6h&step=auto  /hist?metric=ttft&range=1h  /gateway?range=1h  " ++
    "/metrics (Prometheus)  /health  POST /test-alert /bench /bench/cancel /maintenance/start " ++
    "/maintenance/stop (127.0.0.1 only)\n"

/-- SOURCE: lss-collector/src/http.rs:199-219 -/
def route (version path : String) (now : ℤ) (p : Published) : Answer :=
  let json (s : String) : Answer := { code := 200, body := .text s }
  match path with
  | "/status" => json p.statusJson
  | "/metrics" =>
    { code := 200, contentType := "text/plain; version=0.0.4", body := .text p.metricsText }
  | "/rules" => json p.rulesJson
  | "/loadouts" => json p.loadoutsJson
  | "/tokens" => json p.tokensJson
  | "/advice" => json p.adviceJson
  | "/bench" => json p.benchJson
  | "/health" =>
    let age := now - p.lastSampleTs
    let ok := decide (0 < p.lastSampleTs) && decide (age ≤ staleSecs)
    { code := if ok then 200 else 503
      body := .doc [("ok", .bool ok),
        ("last_sample_age_s", .int (if 0 < p.lastSampleTs then age else -1)),
        ("version", .str version)] }
  | "/" => { code := 200, contentType := "text/plain", body := .text indexText }
  | _ => { code := 404, contentType := "text/plain", body := .text "not found\n" }

/-- SOURCE: lss-collector/src/http.rs:96-98 -/
def isHistory (path : String) : Bool := path = "/series" || path = "/hist" || path = "/gateway"

/-- SOURCE: lss-collector/src/http.rs:26 -/
def cacheTtl : ℤ := 2000

/-- SOURCE: lss-collector/src/http.rs:27 -/
def cacheMax : ℕ := 64

/-- SOURCE: lss-collector/src/http.rs:104 -/
def unreadable (why : String) : ℕ × String :=
  (503, "\x7b\"v\":1,\"error\":\"database not readable: " ++
    String.ofList (why.toList.map fun c => if c = '"' then '\x27' else c) ++ "\"\x7d\n")

/-- The connection is opened by the first question that can open it, and kept. Time is in
milliseconds, and the database is asked in seconds.
SOURCE: lss-collector/src/http.rs:100-118 -/
def history (e : Env ℓ β ρ) (url : String) (clock : ℤ) (reader : Bool) (p : Published) :
    Bool × ℕ × String :=
  match if reader then none else e.opens clock with
  | some why => (false, unreadable why)
  | none => (true, e.history p.gateOpen url (clock / 1000))

/-- A question to the history, from the answers kept where there is one.
SOURCE: lss-collector/src/http.rs:61-75 -/
def ask (e : Env ℓ β ρ) (url : String) (clock : ℤ) (p : Published) (l : Listener) :
    Listener × ℕ × String :=
  match (l.cache.lookup url).filter fun hit => clock - hit.1 < cacheTtl with
  | some hit => (l, hit.2)
  | none =>
    let fresh := history e url clock l.reader p
    let kept := if cacheMax ≤ l.cache.length then [] else l.cache
    ({ reader := fresh.1, cache := (url, clock, fresh.2) :: kept.filter fun k => k.1 ≠ url },
     fresh.2)

/-! ## The server -/

/-- The clock is in milliseconds. -/
structure World (ℓ β : Type) where
  shared : Shared β
  listener : ℓ → Listener := fun _ => {}
  clock : ℤ := 0

/-- What can be seen of the server: an answer of a thread to a request, and the test alerts that
the poll loop takes. -/
inductive Seen (ℓ : Type) where
  | answered (l : ℓ) (r : Request) (a : Answer)
  | taken (alerts : List String)

/-- What happens next. -/
inductive Event (ℓ β : Type) where
  | tick (ms : ℕ)
  | request (l : ℓ) (r : Request)
  /-- the poll loop takes the test alerts -/
  | take
  /-- the poll loop closes a window that has expired -/
  | expire
  | publish (published : Published)
  /-- the benchmark goes on -/
  | bench (moves : β → β)

variable [DecidableEq ℓ]

/-- A thread answers a request.
SOURCE: lss-collector/src/http.rs:45-82 -/
def serve (e : Env ℓ β ρ) (w : World ℓ β) (l : ℓ) (r : Request) : World ℓ β × Answer :=
  let path := pathOf r.url
  let here := e.listenerIsLoopback l
  let now := w.clock / 1000
  if path = "/test-alert" then
    let done := testAlert here r.peer (r.method = .post) (readText 4096 r.body) w.shared
    ({ w with shared := done.1 }, done.2)
  else if r.method = .post ∧ path.startsWith "/bench" then
    let done := benchPost e path here r.peer (readText 8192 r.body) now w.shared
    ({ w with shared := done.1 }, done.2)
  else if r.method = .post ∧ path.startsWith "/maintenance" then
    let done := maintenancePost e path here r.peer (readText 4096 r.body) now w.shared
    ({ w with shared := done.1 }, done.2)
  else if (r.method = .get ∨ r.method = .head) ∧ isHistory path then
    let done := ask e r.url w.clock w.shared.published (w.listener l)
    ({ w with listener := Function.update w.listener l done.1 },
     { code := done.2.1, body := .text done.2.2 })
  else if r.method = .get ∨ r.method = .head then
    (w, route e.version path now w.shared.published)
  else (w, { code := 405, contentType := "text/plain", body := .text "method not allowed\n" })

/-- SOURCE: lss-collector/src/http.rs:35-94; lss-collector/src/main.rs:742-774 -/
def step (e : Env ℓ β ρ) (w : World ℓ β) (v : Event ℓ β) : World ℓ β × List (Seen ℓ) :=
  let s := w.shared
  match v with
  | .tick ms => ({ w with clock := w.clock + ms }, [])
  | .request l r =>
    let done := serve e w l r
    (done.1, [.answered l r done.2])
  | .take => ({ w with shared := { s with testAlerts := [] } }, [.taken s.testAlerts])
  | .expire =>
    if s.maintenance.expired (w.clock / 1000) then
      ({ w with shared := { s with maintenance := (s.maintenance.stop (w.clock / 1000)).1 } }, [])
    else (w, [])
  | .publish published => ({ w with shared := { s with published := published } }, [])
  | .bench moves => ({ w with shared := { s with bench := moves s.bench } }, [])

end

end Lss.Model.HttpServer
