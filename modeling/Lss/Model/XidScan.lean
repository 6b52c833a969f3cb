import Lss.Model.Incidents

/-!
# Reading the kernel's fault reports

Every poll reads the kernel journal from a little before the last read that worked. A journal
that could not be read for long is not read back to there: the rest is a gap, left to a back-fill
that books incidents without raising alerts.
-/

set_option autoImplicit false

namespace Lss.Model

/-- SOURCE: lss-collector/src/collect.rs:20 -/
def xidDedupeSecs : ℤ := 900

/-- SOURCE: lss-collector/src/collect.rs:25 -/
def hotLookbackSecs : ℤ := 600

/-- SOURCE: lss-collector/src/collect.rs:30 -/
def backfillMaxEvents : ℕ := 5000

/-! ## The report in a line -/

/-- The text before and after the first place a mark stands at. -/
def splitAtMark (mark : List Char) : List Char → Option (List Char × List Char)
  | [] => if mark = [] then some ([], []) else none
  | c :: text =>
    if mark.isPrefixOf (c :: text) then some ([], (c :: text).drop mark.length)
    else (splitAtMark mark text).map fun s => (c :: s.1, s.2)

/-- The value of a text of digits in a base, none of it a sign. -/
def digitsValue (base : ℕ) (value : Char → Option ℕ) (text : List Char) : Option ℕ :=
  text.foldl (fun acc c => acc.bind fun n => (value c).map fun d => n * base + d) (some 0)

def decimalDigit (c : Char) : Option ℕ := if c.isDigit then some (c.toNat - 48) else none

def hexDigit (c : Char) : Option ℕ :=
  if c.isDigit then some (c.toNat - 48)
  else if 'a' ≤ c ∧ c ≤ 'f' then some (c.toNat - 87)
  else if 'A' ≤ c ∧ c ≤ 'F' then some (c.toNat - 55)
  else none

/-- An unsigned number of 32 bits in hexadecimal digits, with a plus or without. -/
def parseHex32 (text : List Char) : Option ℕ :=
  let digits := match text with
    | '+' :: rest => rest
    | _ => text
  if digits = [] then none else (digitsValue 16 hexDigit digits).filter fun n => n < 2 ^ 32

/-- Domain, bus and device of a PCI address.
SOURCE: lss-core/src/gpu.rs:211 -/
abbrev PciKey := ℕ × ℕ × ℕ

/-- Which GPU has which address. -/
abbrev PciMap := List (PciKey × ℕ)

/-- A text without the marks it begins with. -/
def dropMarks (mark : List Char) : ℕ → List Char → List Char
  | 0, text => text
  | fuel + 1, text =>
    if mark.isPrefixOf text then dropMarks mark fuel (text.drop mark.length) else text

/-- SOURCE: lss-core/src/gpu.rs:213-221 -/
def parsePci (addr : String) : Option PciKey :=
  let text := (trim addr).toList
  match (dropMarks "PCI:".toList text.length text).splitOn ':' with
  | domain :: bus :: devFn :: _ =>
    (parseHex32 domain).bind fun domain =>
      (parseHex32 bus).bind fun bus =>
        (parseHex32 (devFn.takeWhile (· ≠ '.'))).map fun dev => (domain, bus, dev)
  | _ => none

section Line

-- reads the stamp of a line, when it is one
variable (parseIso : String → Option ℤ)

/-- The report in a line, its GPU not yet looked up.
SOURCE: lss-core/src/xid.rs:29-39 -/
def parseXidText (line : String) : Option XidEvent :=
  let mark := "NVRM: Xid (PCI:".toList
  (splitAtMark mark line.toList).bind fun found =>
    let stamp := ((line.toList.dropWhile isBlank).takeWhile fun c => !isBlank c)
    (if stamp = [] then none else parseIso (String.ofList stamp)).bind fun ts =>
      (splitAtMark [')'] found.2).bind fun close =>
        let pci := trim (String.ofList close.1)
        let rest := (trim (String.ofList (close.2.dropWhile (· = ':')))).toList
        let digits := rest.takeWhile Char.isDigit
        if digits = [] then none
        else ((digitsValue 10 decimalDigit digits).filter fun n => n < 2 ^ 32).map fun xid =>
          { ts := ts
            pci := pci
            xid := xid
            gpu := none
            detail := trim (String.ofList ((rest.drop digits.length).dropWhile (· = ','))) }

/-- The GPU at an address.
SOURCE: lss-core/src/xid.rs:40 -/
def gpuAt (pciMap : PciMap) (pci : String) : Option ℕ :=
  (parsePci pci).bind fun key => (pciMap.find? fun e => e.1 = key).map Prod.snd

/-- The report in a line; nothing for any other line.
SOURCE: lss-core/src/xid.rs:29-42 -/
def parseXidLine (pciMap : PciMap) (line : String) : Option XidEvent :=
  (parseXidText parseIso line).map fun e => { e with gpu := gpuAt pciMap e.pci }

/-! ## The hot path -/

/-- Where the hot path reads from, and the gap it leaves out.
SOURCE: lss-collector/src/collect.rs:41-49 -/
def hotWindow (lastOk now : ℤ) : ℤ × Option (ℤ × ℤ) :=
  let floor := now - hotLookbackSecs
  if floor ≤ lastOk - 5 then (lastOk - 5, none) else (floor, some (lastOk - 5, floor))

/-- What the poller remembers between polls.
SOURCE: lss-collector/src/collect.rs:193-197 -/
structure XidPoller where
  pciMap : PciMap := []
  xidSince : ℤ
  /-- the reports that were handed on, with their stamps -/
  xidSeen : List (ℤ × String) := []

/-- One poll: the time, what the GPU tool says of the addresses, and the lines the journal shows,
none when it could not be read. -/
structure XidPoll where
  now : ℤ
  smi : Option PciMap
  read : Option (List String)

/-- The reports of a poll with their lines, and the gap it reports. -/
structure XidResult where
  xids : List (String × XidEvent) := []
  journalGap : Option (ℤ × ℤ) := none

/-- One line of the journal.
SOURCE: lss-collector/src/collect.rs:513-520 -/
def scanLine (pciMap : PciMap) (acc : List (ℤ × String) × List (String × XidEvent))
    (line : String) : List (ℤ × String) × List (String × XidEvent) :=
  match parseXidLine parseIso pciMap line with
  | none => acc
  | some e =>
    if acc.1.any fun s => s.2 = line then acc
    else (acc.1 ++ [(e.ts, line)], acc.2 ++ [(line, e)])

/-- SOURCE: lss-collector/src/collect.rs:281-288, 345-351, 510-525, 555 -/
def XidPoller.poll (st : XidPoller) (p : XidPoll) : XidPoller × XidResult :=
  let pciMap := if st.pciMap = [] then p.smi.getD [] else st.pciMap
  let window := hotWindow st.xidSince p.now
  let prune : List (ℤ × String) → List (ℤ × String) :=
    List.dropWhile fun s => s.1 < p.now - xidDedupeSecs
  match p.read with
  | none => ({ st with pciMap := pciMap, xidSeen := prune st.xidSeen }, {})
  | some lines =>
    let scanned := lines.foldl (scanLine parseIso pciMap) (st.xidSeen, [])
    ({ pciMap := pciMap, xidSince := p.now, xidSeen := prune scanned.1 },
      { xids := scanned.2, journalGap := window.2 })

/-! ## The back-fill and the incidents -/

/-- The reports of the lines a back-fill was given.
SOURCE: lss-collector/src/collect.rs:105-122 -/
def backfillXids (smi : PciMap) (lines : List String) : List XidEvent :=
  (lines.take backfillMaxEvents).filterMap (parseXidLine parseIso smi)

/-- Books reports as incidents. -/
def bookXids (rows : List IncidentRow) (xids : List XidEvent) : List IncidentRow :=
  (xids.map xidOp).foldl bookOp rows

/-- What happens to the reports. -/
inductive XidScanEvent where
  | poll (p : XidPoll)
  /-- a back-fill with its own reading of the addresses, and the lines it was given -/
  | backfill (smi : PciMap) (lines : List String)

/-- The poller, the incidents, and what was handed to the rules or reported as a gap. -/
structure XidScanState where
  poller : XidPoller
  incidents : List IncidentRow := []
  handed : List (String × XidEvent) := []
  gaps : List (ℤ × ℤ) := []

/-- SOURCE: lss-collector/src/main.rs:739, 774-780, 913, 1375-1415 -/
def XidScanState.step (st : XidScanState) : XidScanEvent → XidScanState
  | .poll p =>
    let polled := st.poller.poll parseIso p
    { poller := polled.1
      incidents := bookXids st.incidents (polled.2.xids.map Prod.snd)
      handed := st.handed ++ polled.2.xids
      gaps := st.gaps ++ polled.2.journalGap.toList }
  | .backfill smi lines =>
    { st with incidents := bookXids st.incidents (backfillXids parseIso smi lines) }

end Line

end Lss.Model
