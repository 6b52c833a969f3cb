import Lss.Library.Numerals
import Lss.Library.Table
import Mathlib.Data.List.Infix
import Mathlib.Data.List.Sort
import Mathlib.Data.Int.Notation

/-!
# The alert dispatcher

`lss-alert.sh` mails an alert to an agent on another machine. A mail that does not get through is
kept in the spool, one file for each message, and every later call sends what is spooled first. The
state is what the calls leave on disk and in the agent's inbox. Here every write to disk works and
one call runs after the other. The time stamps in front of the lines of the log are left out.

SOURCE: scripts/lss-alert.sh.
-/

set_option autoImplicit false

namespace Lss.Model.AlertSpool

open Lss.Library

/-- A text, or a line of a file. -/
abbrev Text := List Char

/-- A number as the shell writes it. -/
def decimal (n : ℕ) : Text := Nat.toDigits 10 n

/-- How one call over ssh ended and what it printed, without the newlines at the end. -/
structure Answer where
  status : ℕ
  out : Text

/-- What the site has configured, and what answers the calls: the n-th call over ssh, the sum of a
text, and the clock time of an epoch. -/
structure Site where
  seat : Text
  agent : Text
  agentCmd : Text
  fallback : List Text
  tag : Text
  envFile : Text
  stateDir : Text
  host : Text
  ssh : ℕ → Answer
  cksum : Text → ℕ
  clock : Text → Text
  /-- A mail is one line of a spool file. -/
  tag_line : '\n' ∉ tag

/-- What may differ from call to call: limits, the alert's row, the two test modes, and what
`date +%s` says at the check for duplicates, in the name of a spool file and in the file. -/
structure Env where
  spoolMax : ℤ
  digestOver : ℤ
  alertId : Option ℕ
  dryRun : Bool
  test : Bool
  now : ℕ
  named : ℕ
  stamped : ℕ

/-- `LSS_ALERT_ID`, or `-` without one. SOURCE: scripts/lss-alert.sh:64. -/
def Env.idText (e : Env) : Text :=
  match e.alertId with
  | some id => decimal id
  | none => ['-']

/-- A file of the spool: the two numbers in its name and its lines. -/
structure SpoolFile where
  seq : ℕ
  named : ℕ
  lines : List Text
  deriving DecidableEq

/-- SOURCE: scripts/lss-alert.sh:142. -/
def SpoolFile.name (f : SpoolFile) : Text :=
  Numerals.padded 8 f.seq ++ '-' :: decimal f.named ++ ".msg".toList

/-- `sed -n 2p`. -/
def SpoolFile.mailText (f : SpoolFile) : Text := (f.lines[1]?).getD []

/-- The value behind `key=` in the first line. SOURCE: scripts/lss-alert.sh:157. -/
def SpoolFile.meta (f : SpoolFile) (key : Text) : Text :=
  let words := ((f.lines[0]?).getD []).splitOn ' '
  List.intercalate ['\n'] (words.filterMap (·.dropPrefix? (key ++ ['='])))

/-- A mail an agent was prompted with. -/
structure Mail where
  target : Text
  body : Text

/-- What is on disk (the spool with its counter, `alert.log`, `mail-delivered.ids`, `alert-last`)
and outside: how many calls over ssh there were, and the mails that were delivered. The last two
are kept for the record only: the lines that were cut off the log, and how many messages were not
shown in a digest that was delivered. -/
structure State where
  seq : ℕ
  spool : List SpoolFile
  log : List Text
  ids : List Text
  last : Option (ℕ × ℕ)
  calls : ℕ
  inbox : List Mail
  trimmed : List Text
  unshown : ℕ

/-- A state directory that was just made. -/
def State.start : State := ⟨0, [], [], [], none, 0, [], [], 0⟩

/-! ## The log -/

/-- A text appended to the log, one line for each of its lines. SOURCE: scripts/lss-alert.sh:72. -/
def log (text : Text) (s : State) : State := { s with log := s.log ++ text.splitOn '\n' }

/-- The log is cut to its last 2000 lines when it has more than 4000.
SOURCE: scripts/lss-alert.sh:74. -/
def trimLog (s : State) : State :=
  if 4000 < s.log.length then
    { s with
      log := s.log.drop (s.log.length - 2000)
      trimmed := s.trimmed ++ s.log.take (s.log.length - 2000) }
  else s

/-- The files as the shell lists them. SOURCE: scripts/lss-alert.sh:75. -/
def spoolFiles (s : State) : List SpoolFile :=
  s.spool.insertionSort fun f g => f.name ≤ g.name

/-- SOURCE: scripts/lss-alert.sh:76. -/
def spoolCount (s : State) : ℕ := (spoolFiles s).length

/-! ## The agent's mail -/

/-- Why a mail was not delivered. -/
inductive MailDetail
  | unset | agentBusy | agentNotFound | agentBlocked | agentCmdNotFound | sshOrAgentmailFailed
  deriving DecidableEq

def MailDetail.text : MailDetail → Text
  | .unset => []
  | .agentBusy => "agent_busy".toList
  | .agentNotFound => "agent_not_found".toList
  | .agentBlocked => "agent_blocked".toList
  | .agentCmdNotFound => "agent_cmd_not_found".toList
  | .sshOrAgentmailFailed => "ssh_or_agentmail_failed".toList

/-- SOURCE: scripts/lss-alert.sh:113-124. -/
def mailDetail (out : Text) : MailDetail :=
  if "\"code\":\"timeout\"".toList <:+: out then .agentBusy
  else if "agent_not_found".toList <:+: out then .agentNotFound
  else if "agent_blocked".toList <:+: out then .agentBlocked
  else if "command not found".toList <:+: out then .agentCmdNotFound
  else .sshOrAgentmailFailed

/-- One call over ssh. What it printed goes to the log. -/
def callSeat (site : Site) (s : State) : Answer × State :=
  let answer := site.ssh s.calls
  let s := { s with calls := s.calls + 1 }
  (answer, if answer.out = [] then s else log answer.out s)

/-- The targets in order. The next one is only tried when this one does not exist.
SOURCE: scripts/lss-alert.sh:104-127. -/
def deliverTo (site : Site) (body : Text) :
    Text → List Text → State → Except MailDetail Text × State
  | target, rest, s =>
    let (answer, s) := callSeat site s
    if answer.status = 0 then
      let s := { s with inbox := s.inbox ++ [⟨target, body⟩] }
      (.ok target,
        if target = site.agent then s
        else
          log ("detail=delivered_to_fallback target=".toList ++ target ++ " primary=".toList ++
            site.agent ++ " hint=the_primary_agent_does_not_exist".toList) s)
    else
      match mailDetail answer.out, rest with
      | .agentCmdNotFound, _ =>
        (.error .agentCmdNotFound,
          log ("hint=set_LSS_ALERT_AGENT_CMD_in_".toList ++ site.envFile ++
            " agent_cmd=".toList ++ site.agentCmd ++ " seat=".toList ++ site.seat) s)
      | .agentNotFound, next :: rest => deliverTo site body next rest s
      | detail, _ => (.error detail, s)

/-- SOURCE: scripts/lss-alert.sh:100-128. -/
def deliverMail (site : Site) (dryRun : Bool) (body : Text) (s : State) :
    Except MailDetail Text × State :=
  if dryRun then
    (.ok site.agent, log ("dry-run channel=agent-mail target=".toList ++ site.agent) s)
  else deliverTo site body site.agent site.fallback s

/-- SOURCE: scripts/lss-alert.sh:130-134. -/
def sendBanner (site : Site) (dryRun : Bool) (s : State) : Bool × State :=
  if dryRun then (true, log "dry-run channel=macos-notification".toList s)
  else
    let (answer, s) := callSeat site s
    (answer.status = 0, s)

/-! ## The spool -/

/-- `rm -f`. -/
def removeFile (f : SpoolFile) (s : State) : State :=
  { s with spool := s.spool.filter (·.name ≠ f.name) }

/-- SOURCE: scripts/lss-alert.sh:150-151. -/
def dropFile (max : ℤ) (oldest : SpoolFile) (s : State) : State :=
  removeFile oldest
    (log ("status=DROP channel=agent-mail detail=spool_full max=".toList ++
      (toString max).toList ++ " dropped=".toList ++ oldest.name ++ " text=".toList ++
      oldest.mailText) s)

/-- The oldest files are dropped while there are too many: at most as many times as there are
files. SOURCE: scripts/lss-alert.sh:146-153. -/
def dropOver (max : ℤ) : ℕ → State → State
  | 0, s => s
  | rounds + 1, s =>
    if max < spoolCount s then
      match spoolFiles s with
      | [] => s
      | oldest :: _ => dropOver max rounds (dropFile max oldest s)
    else s

/-- What `printf` writes into a new file. SOURCE: scripts/lss-alert.sh:143. -/
def fileLines (e : Env) (severity text : Text) : List Text :=
  ("ts=".toList ++ decimal e.stamped ++ " id=".toList ++ e.idText ++ " severity=".toList ++
    severity) :: text.splitOn '\n'

/-- SOURCE: scripts/lss-alert.sh:137-155. -/
def spoolAdd (site : Site) (e : Env) (severity text reason : Text) (s : State) : State :=
  let seq := s.seq + 1
  let f : SpoolFile := ⟨seq, e.named, fileLines e severity text⟩
  let s := { s with seq := seq, spool := Table.put SpoolFile.name s.spool f }
  let s := log ("status=SPOOLED channel=agent-mail target=".toList ++ site.agent ++
    " reason=".toList ++ reason ++ " file=".toList ++ f.name ++ " spool=".toList ++
    decimal (spoolCount s)) s
  dropOver e.spoolMax s.spool.length s

/-- SOURCE: scripts/lss-alert.sh:158. -/
def queuedAt (site : Site) (f : SpoolFile) : Text := site.clock (f.meta "ts".toList)

/-- SOURCE: scripts/lss-alert.sh:159. -/
def markDelivered (f : SpoolFile) (s : State) : State :=
  let id := f.meta "id".toList
  if id = [] ∨ id = ['-'] then s else { s with ids := s.ids ++ [id] }

/-- A mail without the tag in front. SOURCE: scripts/lss-alert.sh:175. -/
def stripTag (site : Site) (text : Text) : Text := (text.dropPrefix? (site.tag ++ [' '])).getD text

/-! ## Sending what is spooled -/

/-- The digest while it is put together: its text, the number of the message, and how many are
only counted. -/
structure Digest where
  text : Text
  i : ℕ
  more : ℕ

def digestMaxChars : ℕ := 6000

/-- SOURCE: scripts/lss-alert.sh:173-179. -/
def digestStep (site : Site) (d : Digest) (f : SpoolFile) : Digest :=
  let i := d.i + 1
  let text := stripTag site f.mailText
  if 0 < d.more ∨ digestMaxChars < d.text.length + text.length then ⟨d.text, i, d.more + 1⟩
  else
    ⟨d.text ++ " (".toList ++ decimal i ++ ") ".toList ++ queuedAt site f ++ " ".toList ++ text ++
      " ||".toList, i, d.more⟩

/-- SOURCE: scripts/lss-alert.sh:171-180. -/
def digestOf (site : Site) (files : List SpoolFile) : Digest :=
  let d := files.foldl (digestStep site)
    ⟨site.tag ++ " [digest] ".toList ++ decimal files.length ++ " alerts were queued while ".toList
      ++ site.agent ++ " was not idle (oldest first):".toList, 0, 0⟩
  if 0 < d.more then
    { d with
      text := d.text ++ " +".toList ++ decimal d.more ++ " more not shown - full text in ".toList
        ++ site.stateDir ++ "/alert.log on ".toList ++ site.host }
  else d

/-- What the digest's mail says. SOURCE: scripts/lss-alert.sh:181. -/
def Digest.body (d : Digest) : Text := (d.text.dropSuffix? " ||".toList).getD d.text

/-- How a flush ended: why it stopped, or nothing when the spool is empty afterwards. -/
structure Flush where
  failed : Option MailDetail
  flushed : ℕ
  state : State

/-- SOURCE: scripts/lss-alert.sh:190-200. -/
def flushEach (site : Site) : List SpoolFile → ℕ → State → Flush
  | [], flushed, s => ⟨none, flushed, s⟩
  | f :: files, flushed, s =>
    let text := f.mailText ++ " (queued ".toList ++ queuedAt site f ++ ", delivered late)".toList
    match deliverMail site false text s with
    | (.ok _, s) =>
      flushEach site files (flushed + 1)
        (log ("status=OK channel=agent-mail target=".toList ++ site.agent ++
          " detail=flushed file=".toList ++ f.name) (removeFile f (markDelivered f s)))
    | (.error detail, s) =>
      ⟨some detail, flushed,
        log ("status=FAIL channel=agent-mail target=".toList ++ site.agent ++
          " detail=flush_failed reason=".toList ++ detail.text ++ " spool=".toList ++
          decimal (spoolCount s)) s⟩

/-- SOURCE: scripts/lss-alert.sh:169-189. -/
def flushDigest (site : Site) (files : List SpoolFile) (s : State) : Flush :=
  let d := digestOf site files
  match deliverMail site false d.body s with
  | (.ok _, s) =>
    let s := files.foldl (fun s f => removeFile f (markDelivered f s)) s
    ⟨none, files.length,
      log ("status=OK channel=agent-mail target=".toList ++ site.agent ++
        " detail=flushed_digest count=".toList ++ decimal files.length)
        { s with unshown := s.unshown + d.more }⟩
  | (.error detail, s) =>
    ⟨some detail, 0,
      log ("status=FAIL channel=agent-mail target=".toList ++ site.agent ++
        " detail=flush_failed reason=".toList ++ detail.text ++ " spool=".toList ++
        decimal files.length) s⟩

/-- SOURCE: scripts/lss-alert.sh:163-201. -/
def flushSpool (site : Site) (e : Env) (s : State) : Flush :=
  let files := spoolFiles s
  if files = [] then ⟨none, 0, s⟩
  else if e.dryRun then
    ⟨some .unset, 0, log ("dry-run detail=would_flush spool=".toList ++ decimal files.length) s⟩
  else if e.digestOver < files.length then flushDigest site files s
  else flushEach site files 0 s

/-! ## One call -/

/-- The message as one line. SOURCE: scripts/lss-alert.sh:224-225. -/
def oneLine (e : Env) (message : Text) : Text :=
  (if e.test then "[TEST] ".toList ++ message else message).map fun c =>
    if c = '\n' ∨ c = '\r' then ' ' else c

/-- SOURCE: scripts/lss-alert.sh:228. -/
def sumOf (site : Site) (severity message : Text) : ℕ := site.cksum (severity ++ '|' :: message)

/-- The same alert within 60 seconds. SOURCE: scripts/lss-alert.sh:230-232. -/
def duplicate (sum now : ℕ) (s : State) : Bool :=
  match s.last with
  | some (lastSum, lastTs) => decide (lastSum = sum ∧ (now : ℤ) - lastTs < 60)
  | none => false

/-- SOURCE: scripts/lss-alert.sh:41. -/
inductive MailLeg
  | ok | spooled | skip
  deriving DecidableEq

def MailLeg.text : MailLeg → Text
  | .ok => "OK".toList
  | .spooled => "SPOOLED".toList
  | .skip => "SKIP".toList

/-- SOURCE: scripts/lss-alert.sh:41. -/
inductive BannerLeg
  | ok | fail | skip
  deriving DecidableEq

def BannerLeg.text : BannerLeg → Text
  | .ok => "OK".toList
  | .fail => "FAIL".toList
  | .skip => "SKIP".toList

/-- SOURCE: scripts/lss-alert.sh:240-256. -/
def mailLeg (site : Site) (e : Env) (severity text : Text) (s : State) : MailLeg × State :=
  let flush := flushSpool site e s
  match flush.failed with
  | none =>
    match deliverMail site e.dryRun text flush.state with
    | (.ok target, s) => (.ok, log ("status=OK channel=agent-mail target=".toList ++ target) s)
    | (.error detail, s) => (.spooled, spoolAdd site e severity text detail.text s)
  | some detail =>
    if e.dryRun then (.skip, flush.state)
    else
      (.spooled,
        spoolAdd site e severity text ("queued_behind_spool:".toList ++ detail.text) flush.state)

/-- SOURCE: scripts/lss-alert.sh:258-264. -/
def bannerLeg (site : Site) (e : Env) (severity : Text) (mail : MailLeg) (s : State) :
    BannerLeg × State :=
  let fallsBack := severity = "warn".toList ∧ mail ≠ .ok
  let s := if fallsBack then log "detail=warn_falls_back_to_banner".toList s else s
  if severity ∈ ["page".toList, "hardware".toList] ∨ fallsBack then
    match sendBanner site e.dryRun s with
    | (true, s) => (.ok, log "status=OK channel=macos-notification".toList s)
    | (false, s) =>
      (.fail, log "status=FAIL channel=macos-notification detail=ssh_or_osascript_failed".toList s)
  else (.skip, s)

/-- The last line of the output, and the state the call leaves.
SOURCE: scripts/lss-alert.sh:84-89, 266. -/
def finish (severity : Text) (mail : MailLeg) (banner : BannerLeg) (s : State) : Text × State :=
  let delivered := if mail = .ok ∨ banner = .ok then "1".toList else "0".toList
  let legs := "mail=".toList ++ mail.text ++ " banner=".toList ++ banner.text ++
    " delivered=".toList ++ delivered ++ " spool=".toList ++ decimal (spoolCount s)
  ("lss-alert: ".toList ++ legs,
    trimLog (log ("summary severity=".toList ++ severity ++ " ".toList ++ legs) s))

/-- A call of the script: its two arguments and what it finds around it. -/
structure Invocation where
  severity : Text
  message : Text
  env : Env

/-- SOURCE: scripts/lss-alert.sh:46-47. -/
def Invocation.flushes (call : Invocation) : Prop := call.severity = "--flush".toList

instance (call : Invocation) : Decidable call.flushes :=
  inferInstanceAs (Decidable (call.severity = "--flush".toList))

/-- `${1:-info}`. SOURCE: scripts/lss-alert.sh:48. -/
def orInfo (raw : Text) : Text := if raw = [] then "info".toList else raw

/-- The severity, and whether it is one that the script knows.
SOURCE: scripts/lss-alert.sh:223. -/
def severityOf (severity : Text) : Text × Bool :=
  if severity ∈ ["info".toList, "warn".toList, "page".toList, "hardware".toList] then
    (severity, true)
  else ("warn".toList, false)

/-- SOURCE: scripts/lss-alert.sh:220-266. -/
def send (site : Site) (e : Env) (raw message : Text) (s : State) : Text × State :=
  if message = [] then
    finish (orInfo raw) .skip .skip (log "status=FAIL detail=empty_message".toList s)
  else
    let (severity, known) := severityOf (orInfo raw)
    let s := if known then s
      else log ("status=WARN detail=unknown_severity value=".toList ++ orInfo raw) s
    let message := oneLine e message
    let sum := sumOf site severity message
    if duplicate sum e.now s then
      finish severity .skip .skip (log "status=SKIP detail=duplicate_within_60s".toList s)
    else
      let s := { s with last := some (sum, e.now) }
      let text := site.tag ++ " [".toList ++ severity ++ "] ".toList ++ message
      let (mail, s) := mailLeg site e severity text s
      let (banner, s) := bannerLeg site e severity mail s
      finish severity mail banner s

/-- SOURCE: scripts/lss-alert.sh:211-218. -/
def flushOnly (site : Site) (e : Env) (s : State) : Text × State :=
  let flush := flushSpool site e s
  let count := "flushed=".toList ++ decimal flush.flushed ++ " spool=".toList ++
    decimal (spoolCount flush.state)
  let s := if 0 < flush.flushed then log ("summary flush ".toList ++ count) flush.state
    else flush.state
  ("lss-alert: flush ".toList ++ count, trimLog s)

/-- Without a seat and an agent nothing is delivered. SOURCE: scripts/lss-alert.sh:78-83. -/
def notConfigured (site : Site) (call : Invocation) (s : State) : Text × State :=
  let legs := if call.flushes then "flush flushed=0 spool=".toList
    else "mail=SKIP banner=SKIP delivered=0 spool=".toList
  ("lss-alert: ".toList ++ legs ++ decimal (spoolCount s),
    log ("status=SKIP reason=not_configured ".toList ++
      "hint=set_LSS_ALERT_SEAT_and_LSS_ALERT_AGENT_in_".toList ++ site.envFile ++
      " severity=".toList ++ orInfo call.severity ++ " text=".toList ++ call.message) s)

def Site.configured (site : Site) : Bool := site.seat ≠ [] ∧ site.agent ≠ []

/-- One call of the script: what it prints last and the state it leaves. -/
def invoke (site : Site) (call : Invocation) (s : State) : Text × State :=
  if site.configured then
    if call.flushes then flushOnly site call.env s
    else send site call.env call.severity call.message s
  else notConfigured site call s

/-- The calls one after the other. -/
def run (site : Site) (s : State) (calls : List Invocation) : State :=
  calls.foldl (fun s call => (invoke site call s).2) s

end Lss.Model.AlertSpool
