import Lss.Model.Incidents
import Lss.Model.XidScan

/-!
# Reading the gateway's log

The gateway writes one audit record a request. The lines carry the stamps of the container
runtime, which order as texts; a poll adds up the records after the newest stamp it has counted
and goes on from the newest one it saw.
-/

set_option autoImplicit false

namespace Lss.Model

/-- The users kept in one stretch of the log.
SOURCE: lss-core/src/gatelog.rs:114-115 -/
def expMaxUsers : ℕ := 64

/-- SOURCE: lss-core/src/gatelog.rs:7-40 -/
structure AuditRecord where
  caller : String
  key : Option String := none
  method : String := ""
  path : String := ""
  model : Option String := none
  verdict : String
  status : ℕ
  ip : Option String := none
  estimatedTokens : Option ℚ := none
  estTokens : Option ℚ := none
  completionTokens : Option ℚ := none
  completionExact : Option Bool := none
  durMs : Option ℚ := none
  ttfbMs : Option ℚ := none
  bench : Option Bool := none
deriving DecidableEq

/-! ## Sizes and times -/

/-- SOURCE: lss-core/src/gatelog.rs:42-47 -/
def sizeBucket (promptTokens : ℚ) : String :=
  if promptTokens < 1000 then "<1k"
  else if promptTokens < 8000 then "1-8k"
  else if promptTokens < 32000 then "8-32k"
  else if promptTokens < 128000 then "32-128k"
  else "128k+"

/-- SOURCE: lss-core/src/gatelog.rs:71 -/
def timeEdgesMs : Vector ℚ 8 := #v[1000, 2000, 3000, 5000, 10000, 20000, 30000, 60000]

/-- The first edge a duration does not exceed. -/
def timeEdge (ms : ℚ) : Option (Fin 8) := (List.finRange 8).find? fun i => ms ≤ timeEdgesMs[i]

/-- SOURCE: lss-core/src/gatelog.rs:78-86 -/
def TimeAgg.add (t : TimeAgg) (ms : ℚ) : TimeAgg where
  n := t.n + 1
  sumMs := t.sumMs + ms
  maxMs := max t.maxMs ms
  le := match timeEdge ms with
    | some i => t.le.set i (t.le[i] + 1)
    | none => t.le
  leN := t.leN + 1

/-- SOURCE: lss-core/src/gatelog.rs:235-239 -/
def EstTokens.add (t : EstTokens) (v : ℚ) : EstTokens where
  n := t.n + 1
  sum := t.sum + v
  max := Max.max t.max v

/-- SOURCE: lss-core/src/gatelog.rs:108 -/
def expTtfbMs : List ℚ := [50, 100, 200, 400, 800, 1500, 3000, 6000, 12000, 30000, 60000]

/-- SOURCE: lss-core/src/gatelog.rs:110 -/
def expTokS : List ℚ := [5, 10, 20, 30, 40, 60, 80, 100, 150, 200, 300]

/-- SOURCE: lss-core/src/gatelog.rs:112 -/
def expMinTokens : ℚ := 16
def expMinWriteMs : ℚ := 200

/-- Counts a value in the bucket of the first edge it does not exceed, the last one open.
SOURCE: lss-core/src/gatelog.rs:135-141 -/
def bucketAdd (counts : List ℕ) (edges : List ℚ) (v : ℚ) : List ℕ :=
  let counts :=
    if counts.length = edges.length + 1 then counts
    else counts.take (edges.length + 1) ++ List.replicate (edges.length + 1 - counts.length) 0
  counts.modify ((edges.findIdx? fun e => v ≤ e).getD edges.length) (· + 1)

/-- SOURCE: lss-core/src/gatelog.rs:164-176 -/
def UserExp.add (u : UserExp) (ttfbMs : ℚ) (durMs completionTokens : Option ℚ) : UserExp :=
  let u := { u with n := u.n + 1, ttfb := bucketAdd u.ttfb expTtfbMs ttfbMs }
  match durMs, completionTokens with
  | some dur, some tokens =>
    let writeMs := dur - ttfbMs
    if expMinTokens ≤ tokens ∧ expMinWriteMs ≤ writeMs then
      { u with
        speedN := u.speedN + 1
        tokens := u.tokens + tokens
        writeSecs := u.writeSecs + writeMs / 1000
        speed := bucketAdd u.speed expTokS (tokens / (writeMs / 1000)) }
    else u
  | _, _ => u

/-! ## Addresses -/

/-- Reads digits of a base, at most so many, and what is left.
The address parser of the standard library reads numbers so. -/
def readNumber (base : ℕ) (digit : Char → Option ℕ) (maxDigits : ℕ) (zeroPrefix : Bool)
    (text : List Char) : Option (ℕ × List Char) :=
  let digits := text.takeWhile fun c => (digit c).isSome
  if digits = [] ∨ maxDigits < digits.length then none
  else if !zeroPrefix && digits.head? = some '0' && 1 < digits.length then none
  else (digitsValue base digit digits).map fun n => (n, text.drop digits.length)

/-- A part of an address after its separator; the first part has none. -/
def readPart (separator : Char) (first : Bool) (read : List Char → Option (ℕ × List Char))
    (text : List Char) : Option (ℕ × List Char) :=
  if first then read text
  else match text with
    | c :: rest => if c = separator then read rest else none
    | [] => none

/-- Four numbers below 256, a zero only on its own. -/
def readIpv4 (text : List Char) : Option (List ℕ × List Char) :=
  let octet := fun text =>
    (readNumber 10 decimalDigit 3 false text).filter fun n => n.1 < 256
  (readPart '.' true octet text).bind fun a =>
    (readPart '.' false octet a.2).bind fun b =>
      (readPart '.' false octet b.2).bind fun c =>
        (readPart '.' false octet c.2).map fun d => ([a.1, b.1, c.1, d.1], d.2)

/-- Groups of an address, at most `limit`, and whether they end in an old address. -/
def readGroups (first : Bool) : ℕ → List Char → List ℕ × Bool × List Char
  | 0, text => ([], false, text)
  | limit + 1, text =>
    let old :=
      if limit = 0 then none
      else match first, text with
        | true, text => readIpv4 text
        | false, ':' :: rest => readIpv4 rest
        | false, _ => none
    match old with
    | some ([a, b, c, d], rest) => ([a * 256 + b, c * 256 + d], true, rest)
    | _ =>
      match readPart ':' first (readNumber 16 hexDigit 4 true) text with
      | none => ([], false, text)
      | some (n, rest) =>
        let more := readGroups false limit rest
        (n :: more.1, more.2.1, more.2.2)

/-- The eight groups of an address. -/
def parseIpv6 (text : List Char) : Option (List ℕ) :=
  let head := readGroups true 8 text
  if head.1.length = 8 then if head.2.2 = [] then some head.1 else none
  else if head.2.1 then none
  else match head.2.2 with
    | ':' :: ':' :: rest =>
      let tail := readGroups true (8 - (head.1.length + 1)) rest
      if tail.2.2 = [] then
        some (head.1 ++ List.replicate (8 - head.1.length - tail.1.length) 0 ++ tail.1)
      else none
    | _ => none

def parseIpv4 (text : List Char) : Option (List ℕ) :=
  (readIpv4 text).bind fun a => if a.2 = [] then some a.1 else none

def hexText (n : ℕ) : String := String.ofList (Nat.toDigits 16 n)

/-- The address without its host part.
SOURCE: lss-core/src/gatelog.rs:209-220 -/
def maskIp (ip : String) : String :=
  let text := (trim ip).toList
  match parseIpv4 text with
  | some (a :: b :: c :: _) =>
    toString a ++ "." ++ toString b ++ "." ++ toString c ++ ".x"
  | _ =>
    match parseIpv6 text with
    | some (a :: b :: c :: _) => hexText a ++ ":" ++ hexText b ++ ":" ++ hexText c ++ "::x"
    | _ => "(unknown)"

/-! ## One record -/

/-- Changes the entry of a key, starting a missing one at its default. -/
def addEntry {κ β : Type} [Ord κ] [Std.TransOrd κ] [Inhabited β] (m : Std.ExtTreeMap κ β) (k : κ)
    (add : β → β) : Std.ExtTreeMap κ β :=
  m.alter k fun old => some (add (old.getD default))

namespace AuditRecord

def answered (r : AuditRecord) : Bool := 200 ≤ r.status ∧ r.status < 300

/-- A number of a record that is not negative. -/
def counted (v : Option ℚ) : Option ℚ := v.filter fun v => 0 ≤ v

/-- Whose request it was, as the gateway names its users.
SOURCE: lss-core/src/gatelog.rs:410-419 -/
def who (r : AuditRecord) : Option String :=
  (if r.bench = some true then some benchUser else if r.key.isSome then r.key else r.ip).filter
    fun w => w ≠ ""

/-- The user of an answered request and its time to the first byte. -/
def experience (r : AuditRecord) : Option (String × ℚ) :=
  if r.answered then (counted r.ttfbMs).bind fun ttfb => r.who.map fun w => (w, ttfb) else none

end AuditRecord

/-- One more record of a lane.
SOURCE: lss-core/src/gatelog.rs:385-430 -/
def LaneLog.add (l : LaneLog) (r : AuditRecord) : LaneLog :=
  if r.method ≠ "POST" then { l with other := l.other + 1 }
  else
    let key := r.key.getD "(no key)"
    { requests := l.requests + 1
      other := l.other
      byStatus := addEntry l.byStatus r.status (· + 1)
      byVerdict := addEntry l.byVerdict r.verdict (· + 1)
      byKey := addEntry l.byKey key (· + 1)
      byKeyStatus := addEntry l.byKeyStatus key fun codes => addEntry codes r.status (· + 1)
      est := match AuditRecord.counted r.estimatedTokens with
        | some v => l.est.add v
        | none => l.est
      byKeyEst := match AuditRecord.counted r.estimatedTokens with
        | some v => addEntry l.byKeyEst key fun e => e.add v
        | none => l.byKeyEst
      byIp := match r.ip with
        | some ip => addEntry l.byIp (maskIp ip) (· + 1)
        | none => l.byIp
      ttfbBySize :=
        match r.answered, AuditRecord.counted r.estTokens, AuditRecord.counted r.ttfbMs with
        | true, some prompt, some ttfb =>
          addEntry l.ttfbBySize (sizeBucket prompt) fun t => t.add ttfb
        | _, _, _ => l.ttfbBySize
      completionTokens := match r.answered, AuditRecord.counted r.completionTokens with
        | true, some out => l.completionTokens + out
        | _, _ => l.completionTokens
      completionEstimated := match r.answered, AuditRecord.counted r.completionTokens with
        | true, some out =>
          if r.completionExact = some false then l.completionEstimated + out
          else l.completionEstimated
        | _, _ => l.completionEstimated
      promptMax := match r.answered, AuditRecord.counted r.estTokens with
        | true, some prompt => max l.promptMax prompt
        | _, _ => l.promptMax
      byUser := match r.experience with
        | some (who, ttfb) =>
          if l.byUser.size < expMaxUsers ∨ who ∈ l.byUser then
            addEntry l.byUser who fun u => u.add ttfb r.durMs r.completionTokens
          else l.byUser
        | none => l.byUser }

/-- One more record.
SOURCE: lss-core/src/gatelog.rs:383-384 -/
def LogDelta.add (d : LogDelta) (r : AuditRecord) : LogDelta :=
  if r.caller = "public" then { d with publicLane := d.publicLane.add r }
  else { d with trustedLane := d.trustedLane.add r }

/-! ## The log of a poll -/

/-- The bytes of a text in UTF-8. -/
def utf8Bytes (text : List Char) : List UInt8 := text.flatMap String.utf8EncodeChar

/-- The stamp of the container runtime and the rest of a line. The stamps are padded, so they
order as texts.
SOURCE: lss-core/src/gatelog.rs:252-256 -/
def splitDockerTs (line : String) : Option (String × String) :=
  (splitAtMark [' '] line.toList).bind fun s =>
    if 20 ≤ (utf8Bytes s.1).length ∧ (utf8Bytes s.1)[4]? = some 45 ∧
        (utf8Bytes s.1)[10]? = some 84 ∧ s.1.getLast? = some 'Z' then
      some (String.ofList s.1, String.ofList s.2)
    else none

/-- What the newest stamp is after one more. -/
def newer (newest : Option String) (ts : String) : Option String :=
  if newest.all fun n => n < ts then some ts else newest

section Ingest

-- reads a record from its text, when it is one
variable (fromJson : String → Option AuditRecord)

/-- SOURCE: lss-core/src/gatelog.rs:259-265 -/
def parseAudit (rest : String) : Option AuditRecord :=
  let rest := trim rest
  if rest.toList.head? = some '\x7b' then fromJson rest else none

/-- One line, unless it was counted before.
SOURCE: lss-core/src/gatelog.rs:444-454 -/
def ingestLine (afterTs : Option String) (acc : LogDelta × Option String) (line : String) :
    LogDelta × Option String :=
  match splitDockerTs line with
  | none => acc
  | some (ts, rest) =>
    if afterTs.any fun a => ts ≤ a then acc
    else
      (match parseAudit fromJson rest with
        | some r => acc.1.add r
        | none => acc.1,
       newer acc.2 ts)

/-- The records after a stamp, and the newest stamp.
SOURCE: lss-core/src/gatelog.rs:441-457 -/
def ingest (lines : List String) (afterTs : Option String) : LogDelta × Option String :=
  lines.foldl (ingestLine fromJson afterTs) ({}, afterTs)

/-- One poll of the log, none when it could not be read: the cursor moves to the newest stamp.
SOURCE: lss-collector/src/collect.rs:452-460, 502-508 -/
def pollLog (cursor : Option String) (read : Option (List String)) : LogDelta × Option String :=
  match read with
  | none => ({}, cursor)
  | some lines =>
    let read := ingest fromJson lines cursor
    (read.1, read.2.or cursor)

/-- The stretches of polls in a row, and the cursor after them. -/
def pollLogs (cursor : Option String) : List (Option (List String)) → List LogDelta × Option String
  | [] => ([], cursor)
  | read :: reads =>
    let polled := pollLog fromJson cursor read
    let rest := pollLogs polled.2 reads
    (polled.1 :: rest.1, rest.2)

end Ingest

end Lss.Model
