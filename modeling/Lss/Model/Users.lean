import Mathlib.Data.List.Sort
import Lss.Model.GateIngest
import Lss.Model.GatewayTable

/-!
# The users table

Who is on the server: the gateway's rows for its users, with a friendly name for an address. The
benchmark's row is shown apart, and so is what the collector itself asked from an address; what is
left of such a row is a user on the same address.
-/

set_option autoImplicit false

namespace Lss.Model.Users

/-! ## The gateway's rows -/

/-- The load of a user on one upstream.
SOURCE: lss-core/src/gate.rs:137-145 -/
structure UpstreamLoad where
  inflight : ℕ := 0
  requests24h : ℕ := 0
  peakInflight10m : ℕ := 0
  peakInflight24h : ℕ := 0
deriving Inhabited

/-- A row of the gateway's user table: the name of a key, or an address on the trusted lane.
SOURCE: lss-core/src/gate.rs:103-135 -/
structure GateUser where
  lane : String := ""
  user : String := ""
  inflight : ℕ := 0
  peakInflight10m : ℕ := 0
  peakInflight24h : ℕ := 0
  concLimit : Option ℕ := none
  rpmLimit : Option ℕ := none
  rpmNow : ℕ := 0
  requests1h : ℕ := 0
  requests24h : ℕ := 0
  ok24h : ℕ := 0
  rejected24h : ℕ := 0
  errors24h : ℕ := 0
  clientClosed24h : ℕ := 0
  promptTokensEst24h : ℕ := 0
  completionTokens24h : ℕ := 0
  completionTokensExact : Bool := false
  inflightPromptTokensEst : ℕ := 0
  firstSeen : ℚ := 0
  lastSeen : ℚ := 0
  lastStatus : Option ℕ := none
  byUpstream : Std.ExtTreeMap String UpstreamLoad := ∅
deriving Inhabited

/-- SOURCE: lss-core/src/gate.rs:147-159 -/
structure GateTotals where
  inflight : ℕ := 0
  /-- none on a gateway that cannot split -/
  inflightByUpstream : Option (Std.ExtTreeMap String ℕ) := none
  usersActive10m : ℕ := 0
  users24h : ℕ := 0
  unauthenticated24h : ℕ := 0
deriving Inhabited

/-- What the gateway publishes of its users.
SOURCE: lss-core/src/gate.rs:43-46 -/
structure GateHealth where
  users : Option (List GateUser) := none
  totals : Option GateTotals := none
deriving Inhabited

/-! ## Names -/

/-- A name for an address, from the configuration.
SOURCE: lss-core/src/users.rs:8-14 -/
structure UserAlias where
  ip : String := ""
  name : String := ""

def parseAddress (text : List Char) : Option (List ℕ) := (parseIpv4 text).or (parseIpv6 text)

/-- Two addresses as addresses, anything else as text.
SOURCE: lss-core/src/users.rs:22-25 -/
def sameAddress (user a : String) : Bool :=
  match parseAddress (trim a).toList, parseAddress (trim user).toList with
  | some x, some y => x = y
  | _, _ => trim a = trim user

/-- SOURCE: lss-core/src/users.rs:16-27 -/
def aliasFor (lane user : String) (aliases : List UserAlias)
    (tailscale : Std.ExtTreeMap String String) : Option String :=
  if lane ≠ "trusted" then none
  else
    ((aliases.find? fun a => sameAddress user a.ip && a.name ≠ "").map UserAlias.name).or
      ((tailscale.toList.find? fun e => sameAddress user e.1).map Prod.snd)

/-- SOURCE: lss-core/src/gate.rs:162-167 -/
def seriesId (lane user : String) : String :=
  (if lane = "trusted" then "t" else "p") ++ "." ++ upstreamSeriesId user

/-! ## A row -/

/-- A row of the table.
SOURCE: lss-core/src/users.rs:77-104 -/
structure UserRow where
  name : String
  seriesId : String
  secsSinceLastRequest : Option ℤ
  gate : GateUser

/-- The age of a stamp; a stamp of zero was not given.
SOURCE: lss-core/src/users.rs:111-113 -/
def secsSince (stamp : ℚ) (now : ℤ) : Option ℤ :=
  if 0 < stamp then some (roundHalfAway (max (now - stamp) 0)) else none

/-- SOURCE: lss-core/src/users.rs:155 -/
def probeUser : String := "lss-probe"

/-- How long after the last request a user still counts as active.
SOURCE: lss-core/src/users.rs:190 -/
def activeWindowSecs : ℚ := 600

/-- What the collector knows of its own requests.
SOURCE: lss-core/src/users.rs:176-184 -/
structure OwnTraffic where
  probeUser : Option String := none
  probes1h : ℕ := 0
  probes24h : ℕ := 0

/-- SOURCE: lss-core/src/users.rs:157-174 -/
structure UsersStatus where
  available : Bool := false
  activeNow : ℕ := 0
  totals : GateTotals := {}
  rows : List UserRow := []
  bench : Option UserRow := none
  probe : Option UserRow := none

section Build

variable (aliases : List UserAlias) (tailscale : Std.ExtTreeMap String String) (own : OwnTraffic)
  (now : ℤ)

/-- SOURCE: lss-core/src/users.rs:194 -/
def named (u : GateUser) : UserRow where
  name := (aliasFor u.lane u.user aliases tailscale).getD u.user
  seriesId := seriesId u.lane u.user
  secsSinceLastRequest := secsSince u.lastSeen now
  gate := u

/-- SOURCE: lss-core/src/users.rs:195 -/
def recent (u : GateUser) : Bool := now - u.lastSeen ≤ activeWindowSecs

/-- SOURCE: lss-core/src/users.rs:200 -/
def isBench (u : GateUser) : Bool := u.lane = "trusted" ∧ u.user = benchUser

/-- SOURCE: lss-core/src/users.rs:216 -/
def isProbeAddress (u : GateUser) : Bool :=
  u.lane = "trusted" ∧ (own.probeUser.any fun p => p = u.user) ∧ 0 < own.probes24h

/-- The totals without one more user of the day.
SOURCE: lss-core/src/users.rs:210-211, 238-239 -/
def withoutUser (t : GateTotals) (u : GateUser) : GateTotals :=
  { t with
    users24h := t.users24h - 1
    usersActive10m := t.usersActive10m - if recent now u then 1 else 0 }

/-- The totals without the benchmark, on the machines it was running on too.
SOURCE: lss-core/src/users.rs:201-212 -/
def withoutBench (t : GateTotals) (u : GateUser) : GateTotals :=
  let taken := fun (split : Std.ExtTreeMap String ℕ) =>
    (u.byUpstream.foldl (fun split up l => split.modify up fun n => n - l.inflight) split).filter
      fun _ n => 0 < n
  withoutUser now
    { t with
      inflight := t.inflight - u.inflight
      inflightByUpstream := t.inflightByUpstream.map taken } u

/-- The row of the probes at an address.
SOURCE: lss-core/src/users.rs:223-231 -/
def probeRow (u : GateUser) : UserRow :=
  let mine24h := min own.probes24h u.requests24h
  let mine1h := min own.probes1h u.requests1h
  { name := probeUser
    seriesId := seriesId u.lane probeUser
    secsSinceLastRequest := secsSince u.lastSeen now
    gate :=
      { lane := u.lane
        user := probeUser
        requests1h := mine1h
        requests24h := mine24h
        ok24h := min mine24h u.ok24h
        completionTokensExact := true
        firstSeen := u.firstSeen
        lastSeen := u.lastSeen
        lastStatus := u.lastStatus } }

/-- What the probes leave of the row at their address, none where a subtraction went below zero.
SOURCE: lss-core/src/users.rs:223-224, 232-235 -/
def restOf (u : GateUser) : Option GateUser :=
  let mine24h := min own.probes24h u.requests24h
  let mine1h := min own.probes1h u.requests1h
  (checkedSub u.requests24h mine24h).bind fun requests24h =>
    (checkedSub u.requests1h mine1h).map fun requests1h =>
      { u with
        requests24h := requests24h
        requests1h := requests1h
        ok24h := u.ok24h - mine24h }

/-- The table on its way. -/
structure Split where
  totals : GateTotals
  rows : List UserRow := []
  bench : Option UserRow := none
  probe : Option UserRow := none

/-- One user of the gateway.
SOURCE: lss-core/src/users.rs:199-243 -/
def addUser (s : Split) (u : GateUser) : Option Split :=
  if isBench u then
    some { s with
      totals := withoutBench now s.totals u
      bench := some (named aliases tailscale now u) }
  else if !isProbeAddress own u then
    some { s with rows := s.rows ++ [named aliases tailscale now u] }
  else
    (restOf own u).map fun rest =>
      let s := { s with probe := some (probeRow own now u) }
      if rest.requests24h = 0 ∧ rest.inflight = 0 then
        -- nobody but the probe used this address
        { s with totals := withoutUser now s.totals u }
      else { s with rows := s.rows ++ [named aliases tailscale now rest] }

/-- SOURCE: lss-core/src/users.rs:196-243 -/
def splitUsers (users : List GateUser) (totals : Option GateTotals) : Option Split :=
  users.foldlM (addUser aliases tailscale own now)
    { totals := totals.getD { inflight := (users.map GateUser.inflight).sum } }

/-- In flight first, then the requests of a day, then by name.
SOURCE: lss-core/src/users.rs:244 -/
def busier (a b : UserRow) : Prop :=
  b.gate.inflight < a.gate.inflight ∨ b.gate.inflight = a.gate.inflight ∧
    (b.gate.requests24h < a.gate.requests24h ∨ b.gate.requests24h = a.gate.requests24h ∧
      a.name ≤ b.name)

instance : DecidableRel busier := fun _ _ => inferInstanceAs (Decidable (_ ∨ _ ∧ (_ ∨ _ ∧ _)))

/-- The table, none where a subtraction went below zero.
SOURCE: lss-core/src/users.rs:192-248 -/
def buildUsers (gate : Option GateHealth) : Option UsersStatus :=
  match gate.bind GateHealth.users with
  | none => some {}
  | some users =>
    (splitUsers aliases tailscale own now users (gate.bind GateHealth.totals)).map fun s =>
      let rows := s.rows.insertionSort busier
      { available := true
        activeNow := (rows.filter fun r => 0 < r.gate.inflight).length
        totals := s.totals
        rows := rows.take 50
        bench := s.bench
        probe := s.probe }

end Build

end Lss.Model.Users
