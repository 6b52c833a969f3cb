import Lss.Library.Lines
import Lss.Model.Engines
import Lss.Model.LoadoutAcc

/-!
# What proves that a probe ran alone

A probe is a reading only when nobody else was on the engine. The evidence is what the engine and
the gateway said just before the probe was sent and once it had been counted.
-/

set_option autoImplicit false

namespace Lss.Model

open Lss.Library.Lines (trimmed)

/-! ## The evidence -/

/-- SOURCE: lss-core/src/probe.rs:81 -/
def invalidBusyBefore : String := "busy_before"

/-- SOURCE: lss-core/src/probe.rs:82 -/
def invalidSlowTtft : String := "slow_ttft"

/-- SOURCE: lss-core/src/probe.rs:83 -/
def invalidContended : String := "contended"

/-- What the probe's own prompt may add to the prompt counter.
SOURCE: lss-core/src/probe.rs:177 -/
def probePromptMarginTokens : ℚ := 4096

/-- SOURCE: lss-core/src/probe.rs:184 -/
def c1TtftContendedRatio : ℚ := 3 / 2

/-- Tokens that may land on either side of a read.
SOURCE: lss-core/src/probe.rs:194 -/
def counterMarginTokens : ℚ := 8

/-- What was seen around one probe.
SOURCE: lss-core/src/probe.rs:125-172 -/
structure ProbeEvidence where
  runningBefore : ℚ
  queueBefore : ℚ
  ttftMs : ℚ
  runningAfter : Option ℚ
  queueAfter : Option ℚ
  /-- what the gateway had let through, when its health could be read -/
  admittedBefore : Option ℕ
  admittedAfter : Option ℕ
  /-- the gateway let the probe itself through -/
  probeAdmitted : Bool
  gateway : Bool
  engineReportsLoad : Bool
  genTokensBefore : Option ℚ
  genTokensAfter : Option ℚ
  /-- the tokens of the probe's own answer -/
  probeTokens : ℚ
  ttftBaselineMs : Option ℚ
  requestsBefore : Option ℚ
  requestsAfter : Option ℚ
  promptTokensBefore : Option ℚ
  promptTokensAfter : Option ℚ

/-- What a probe could be shown to be.
SOURCE: lss-core/src/probe.rs:199-202 -/
inductive Confidence where
  | ranAlone
  | couldNotRuleOut (why : String)
deriving DecidableEq

/-- Why a probe is no reading: the reason and its detail. -/
abbrev Invalid := String × String

/-- SOURCE: lss-core/src/probe.rs:233-235 -/
def checkBefore (e : ProbeEvidence) : Option Invalid :=
  if 0 < e.runningBefore ∨ 0 < e.queueBefore then
    some (invalidBusyBefore, "running=" ++ F64.display e.runningBefore ++ " queue=" ++
      F64.display e.queueBefore ++ " before the probe")
  else none

/-- SOURCE: lss-core/src/probe.rs:236-246 -/
def checkTtft (e : ProbeEvidence) (maxTtftS : ℚ) : Option Invalid :=
  if maxTtftS * 1000 < e.ttftMs then
    some (invalidSlowTtft, "TTFT " ++ F64.fixed 1 (e.ttftMs / 1000) ++ " s > " ++
      F64.display maxTtftS ++ " s: the engine was prefilling someone else")
  else
    (e.ttftBaselineMs.filter fun b => 0 < b).bind fun idle =>
      if c1TtftContendedRatio * idle < e.ttftMs then
        some (invalidContended, "TTFT " ++ F64.fixed 1 e.ttftMs ++ " ms is " ++
          F64.fixed 1 (e.ttftMs / idle) ++ "x the idle median " ++ F64.fixed 1 idle ++
          " ms (limit " ++ F64.display c1TtftContendedRatio ++
          "x): the engine was busy with someone else's request")
      else none

/-- SOURCE: lss-core/src/probe.rs:247-252 -/
def checkRequests (e : ProbeEvidence) : Option Invalid :=
  e.requestsBefore.bind fun before => e.requestsAfter.bind fun after =>
    let others := max (after - before) 0 - 1
    if 1 ≤ others then
      some (invalidContended, "requests_total grew by " ++ F64.fixed 0 (after - before) ++ ": " ++
        F64.fixed 0 others ++
        " other request(s) finished on this engine while the probe was out")
    else none

/-- SOURCE: lss-core/src/probe.rs:253-258 -/
def checkPrompt (e : ProbeEvidence) : Option Invalid :=
  e.promptTokensBefore.bind fun before => e.promptTokensAfter.bind fun after =>
    let grown := max (after - before) 0
    if probePromptMarginTokens < grown then
      some (invalidContended, "prompt_tokens_total grew by " ++ F64.fixed 0 grown ++
        " - the probe's own prompt is a sentence: someone else's prompt was processed during " ++
        "the probe")
    else none

/-- The counter has not counted the probe's answer yet, or nothing but it.
SOURCE: lss-core/src/probe.rs:266-267 -/
def ownTokensOnly (grown probeTokens : ℚ) : Bool :=
  grown ≤ counterMarginTokens ∨ |grown - probeTokens| ≤ counterMarginTokens

/-- SOURCE: lss-core/src/probe.rs:259-276 -/
def checkTokens (e : ProbeEvidence) : Option Invalid :=
  e.genTokensBefore.bind fun before => e.genTokensAfter.bind fun after =>
    let grown := max (after - before) 0
    if ownTokensOnly grown e.probeTokens then none
    else
      let why :=
        if e.probeTokens < grown then
          F64.fixed 0 (grown - e.probeTokens) ++ " more than the probe's own " ++
            F64.fixed 0 e.probeTokens ++ " tokens"
        else "neither 0 nor the probe's own " ++ F64.fixed 0 e.probeTokens ++ " tokens"
      some (invalidContended, "generation_tokens_total grew by " ++ F64.fixed 0 grown ++ ", " ++
        why ++ ": something else generated on this engine during the probe")

/-- The caveat of an engine that says nothing about its load.
SOURCE: lss-core/src/probe.rs:277-288 -/
def checkAfter (e : ProbeEvidence) : Except Invalid (Option String) :=
  match e.runningAfter, e.queueAfter with
  | some running, some queue =>
    if 1 < running ∨ 0 < queue then
      .error (invalidContended, "running=" ++ F64.display running ++ " queue=" ++
        F64.display queue ++ " right after the probe")
    else .ok none
  | _, _ =>
    if e.engineReportsLoad then
      .error (invalidContended,
        "engine metrics unreadable after the probe: cannot show it ran alone")
    else .ok (some "the engine does not report how many requests are running")

/-- SOURCE: lss-core/src/probe.rs:289-308 -/
def checkGate (e : ProbeEvidence) : Option Invalid :=
  if !e.gateway then none
  else
    match e.admittedBefore, e.admittedAfter with
    | some before, some after =>
      if after < before then some (invalidContended, "the gate restarted during the probe")
      else
        let others := after - before - if e.probeAdmitted then 1 else 0
        if others = 0 then none
        else some (invalidContended, "the gate admitted " ++ toString others ++
          " other request(s) during the probe")
    | _, _ =>
      some (invalidContended, "gate admitted counters unreadable: cannot show it ran alone")

/-- A reading, or why the probe is none.
SOURCE: lss-core/src/probe.rs:232-309 -/
def validate (e : ProbeEvidence) (maxTtftS : ℚ) : Except Invalid Confidence :=
  match (checkBefore e).or ((checkTtft e maxTtftS).or ((checkRequests e).or
      ((checkPrompt e).or (checkTokens e)))) with
  | some why => .error why
  | none =>
    match checkAfter e with
    | .error why => .error why
    | .ok caveat =>
      match checkGate e with
      | some why => .error why
      | none => .ok (caveat.elim .ranAlone .couldNotRuleOut)

/-! ## How it is collected -/

/-- How busy an engine is.
SOURCE: lss-collector/src/probe_run.rs:66-78 -/
structure EngineLoad where
  running : ℚ
  queue : ℚ
  reportsLoad : Bool
  genTokens : Option ℚ
  requests : Option ℚ
  promptTokens : Option ℚ

/-- Nothing when the engine cannot be reached or its kind is not known.
SOURCE: lss-collector/src/probe_run.rs:87-98 -/
def engineLoad (parse : String → Option ℚ) (publicPriority trustedPriority : String)
    (kind : Option EngineKind) (pages : Pages) : Option EngineLoad :=
  kind.bind fun kind =>
    let scraped := scrape parse publicPriority trustedPriority pages kind
    if !pages.modelOk && scraped.metrics.isNone then none
    else
      let m := scraped.metrics.getD {}
      some
        { running := m.running.getD 0
          queue := m.queued.getD 0
          reportsLoad := m.running.isSome
          genTokens := m.generationTokensTotal
          requests := m.requestsTotal
          promptTokens := m.promptTokensTotal }

/-- How long, in milliseconds, the engine may take to count the probe's request.
SOURCE: lss-collector/src/probe_run.rs:84 -/
def settleTimeout : ℤ := 2000

/-- SOURCE: lss-collector/src/probe_run.rs:107-110 -/
def counted (before : EngineLoad) (now : Option EngineLoad) : Bool :=
  match before.requests, now.bind EngineLoad.requests with
  | some b, some a => 1 ≤ a - b
  | _, _ => true

/-- A read of the engine after the probe: when it was made, how long the wait has been since it
began, and what the engine said. -/
structure SettleRead where
  moment : ℤ
  elapsed : ℤ
  load : Option EngineLoad

/-- The read that ends the wait.
SOURCE: lss-collector/src/probe_run.rs:103-116 -/
def settledLoad (before : EngineLoad) (reads : List SettleRead) : Option SettleRead :=
  reads.find? fun r => counted before r.load || settleTimeout ≤ r.elapsed

/-- A number of sixteen bits written in decimal. -/
def parseU16 (text : List Char) : Option ℕ :=
  let digits := if text.head? = some '+' then text.tail else text
  if digits ≠ [] ∧ digits.all Char.isDigit ∧ Nat.ofDigitChars 10 digits 0 < 2 ^ 16 then
    some (Nat.ofDigitChars 10 digits 0)
  else none

/-- SOURCE: lss-core/src/probe.rs:356-370 -/
def ProbeRecord.gateLoggedStatus (p : ProbeRecord) : Option ℕ :=
  p.httpStatus.or
    (if p.status = "ok" then some 200
    else if p.status = "timeout" then some 499
    else if p.status = "error" then
      if p.detail.startsWith "HTTP " then
        parseU16 (trimmed Char.isWhitespace (p.detail.toList.drop 5))
      else if p.detail.startsWith "stream" then some 200
      else none
    else none)

/-- SOURCE: lss-core/src/probe.rs:374-376 -/
def ProbeRecord.wasAdmitted (p : ProbeRecord) : Bool :=
  p.gateLoggedStatus.any fun c => !(400 ≤ c && c < 499)

/-- The largest finite double. -/
def f64Max : ℚ := (2 ^ 53 - 1) * 2 ^ 971

/-- The evidence about a probe that has timings.
SOURCE: lss-collector/src/probe_run.rs:143-163 -/
def evidence (gateway : Bool) (record : ProbeRecord) (ttftBaselineMs : Option ℚ)
    (before : EngineLoad) (after : Option EngineLoad) (admittedBefore admittedAfter : Option ℕ) :
    ProbeEvidence :=
  { runningBefore := before.running
    queueBefore := before.queue
    ttftMs := record.ttftMs.getD f64Max
    runningAfter := (after.filter EngineLoad.reportsLoad).map EngineLoad.running
    queueAfter := (after.filter EngineLoad.reportsLoad).map EngineLoad.queue
    admittedBefore := admittedBefore
    admittedAfter := admittedAfter
    probeAdmitted := record.wasAdmitted
    gateway := gateway
    engineReportsLoad := after.all EngineLoad.reportsLoad
    genTokensBefore := before.genTokens
    genTokensAfter := after.bind EngineLoad.genTokens
    probeTokens := record.tokens.getD 0
    ttftBaselineMs := ttftBaselineMs
    requestsBefore := before.requests
    requestsAfter := after.bind EngineLoad.requests
    promptTokensBefore := before.promptTokens
    promptTokensAfter := after.bind EngineLoad.promptTokens }

end Lss.Model
