import Lss.Model.Saturation
import Mathlib.Data.List.MinMax

/-!
# How many more users a server takes

Three ceilings are worked out from what was measured: the slots of the engine, its memory, and
its speed. The lowest is the answer, less the users there are when the server is busy.
-/

set_option autoImplicit false

namespace Lss.Model

/-- SOURCE: lss-core/src/loadout.rs:29-30 -/
def minLevelSamples : ℕ := 6

/-- SOURCE: lss-core/src/headroom.rs:20-21 -/
inductive CeilingKind where
  | slots
  | memory
  | speed
deriving DecidableEq

/-- SOURCE: lss-core/src/headroom.rs:18-24 -/
structure Ceiling where
  kind : CeilingKind
  users : Option ℕ
  why : String

/-- SOURCE: lss-core/src/headroom.rs:28-37 -/
structure Headroom where
  moreUsers : Option ℕ
  busyUsers : Option ℕ
  limitedBy : Option CeilingKind
  sentence : String
  ceilings : List Ceiling

/-- SOURCE: lss-core/src/headroom.rs:40-51 -/
structure HeadroomInputs where
  slots : ℕ := 0
  curve : List CurveRow := []
  live : List CurveRow := []
  kvPeak : ℚ := 0
  saturation : Option Saturation := none
  minTokSPerUser : ℚ := 0

/-! ## How busy it is -/

/-- The first level at which enough samples have been seen.
SOURCE: lss-core/src/headroom.rs:60-66 -/
def busyFrom (total : ℕ) : ℕ → List CurveRow → Option ℕ
  | _, [] => none
  | seen, r :: rest =>
    if (total : ℚ) * (95 / 100) ≤ (seen + r.samples : ℕ) then some r.running
    else busyFrom total (seen + r.samples) rest

/-- The level under which 95 % of the serving samples sit.
SOURCE: lss-core/src/headroom.rs:55-67 -/
def busyLevel (live : List CurveRow) : Option ℕ :=
  let total := liveSamples live
  if total < minLevelSamples then none
  else (busyFrom total 0 live).or (live.getLast?.map CurveRow.running)

/-! ## The ceilings -/

/-- SOURCE: lss-core/src/headroom.rs:73-77 -/
def slotsCeiling (i : HeadroomInputs) : Ceiling :=
  if 0 < i.slots then
    { kind := .slots
      users := some i.slots
      why := "the engine runs at most " ++ toString i.slots ++
        " requests at once; the next one waits" }
  else { kind := .slots, users := none, why := "the engine's slot count is not known" }

/-- What each request used when the memory was fullest, scaled up to nine tenths of it. A live
row has at least one request running.
SOURCE: lss-core/src/headroom.rs:71,78-86 -/
def memoryCeiling (i : HeadroomInputs) : Ceiling :=
  let peakRunning := ((i.live.filter fun r => 0 < r.samples).map CurveRow.running).max?
  match peakRunning with
  | some peak =>
    if 5 / 1000 < i.kvPeak then
      let perUser := i.kvPeak / peak
      let users := max ⌊9 / 10 / perUser⌋.toNat peak
      { kind := .memory
        users := some users
        why := "memory (KV) peaked at " ++ fixedDecimals 0 (i.kvPeak * 100) ++ "% with up to " ++
          toString peak ++ " running: about " ++ fixedDecimals 0 (perUser * 100) ++
          "% each, so about " ++ toString users ++ " fit before it is 90% full" }
    else
      { kind := .memory, users := none,
        why := "memory (KV) use has not been seen under load yet" }
  | none =>
    { kind := .memory, users := none, why := "memory (KV) use has not been seen under load yet" }

/-- The highest level at which each user still gets the target.
SOURCE: lss-core/src/headroom.rs:87-88 -/
def byTarget (i : HeadroomInputs) : Option ℕ :=
  if 0 < i.minTokSPerUser then
    (((i.curve.filter fun r => qualifies r (liveSamples i.curve)).filter fun r =>
      r.perRequestTokS.any fun t => i.minTokSPerUser ≤ t).map CurveRow.running).max?
  else none

/-- SOURCE: lss-core/src/headroom.rs:89 -/
def measuredTop (i : HeadroomInputs) : Option ℕ :=
  ((i.curve.filter fun r => r.tokS.isSome && qualifies r (liveSamples i.curve)).map
    CurveRow.running).max?

/-- A ceiling from the speed is claimed from a benchmark, or from three live levels.
SOURCE: lss-core/src/headroom.rs:93-94 -/
def solid (i : HeadroomInputs) : Bool :=
  let (levels, fromBench) := curveEvidence i.curve
  fromBench || 3 ≤ levels

/-- SOURCE: lss-core/src/headroom.rs:98,105 -/
def targetWhy (minTokSPerUser : ℚ) (cap : ℕ) : String :=
  "each user still gets " ++ fixedDecimals 0 minTokSPerUser ++ " tok/s or more up to " ++
    toString cap ++ " at once (the target)"

/-- SOURCE: lss-core/src/headroom.rs:98 -/
def settledWhy (users : ℕ) (totalTokS : ℚ) : String :=
  "total speed stops growing after " ++ toString users ++ " at once (about " ++
    fixedDecimals 0 totalTokS ++ " tok/s): more users only slow each other down"

/-- SOURCE: lss-core/src/headroom.rs:106 -/
def growingWhy (users : ℕ) : String :=
  "total speed was still growing at " ++ toString users ++
    " at once, the most measured: no speed ceiling found yet"

/-- SOURCE: lss-core/src/headroom.rs:109-110 -/
def noSpeedCeiling (i : HeadroomInputs) : Ceiling :=
  let levels := (curveEvidence i.curve).1
  if !solid i && 0 < levels then
    { kind := .speed
      users := none
      why := "only " ++ toString levels ++ " load level" ++ (if levels = 1 then "" else "s") ++
        " has enough traffic to judge: not enough to say where speed stops growing " ++
        "(`lss bench quick` measures it)" }
  else
    { kind := .speed
      users := none
      why := "too little traffic at different loads to see where speed stops growing " ++
        "(lss bench quick measures it)" }

/-- Where more users slow each other down, or where each falls under the target.
SOURCE: lss-core/src/headroom.rs:95-111 -/
def speedCeiling (i : HeadroomInputs) : Ceiling :=
  let target := byTarget i
  match i.saturation.filter fun _ => solid i with
  | some (.after users totalTokS _) =>
    let cap := (target.map fun t => min t users).getD users
    { kind := .speed
      users := some cap
      why :=
        if target.any fun t => t < users then targetWhy i.minTokSPerUser cap
        else settledWhy users totalTokS }
  | some (.stillGrowing users _) =>
    -- the most that was measured is a floor, not a cap
    let top := (measuredTop i).getD users
    match target.filter (· < top) with
    | some t => { kind := .speed, users := some t, why := targetWhy i.minTokSPerUser t }
    | none => { kind := .speed, users := none, why := growingWhy users }
  | _ => noSpeedCeiling i

/-! ## The estimate -/

/-- SOURCE: lss-core/src/headroom.rs:116-120 -/
def CeilingKind.what : CeilingKind → String
  | .slots => "the slots run out"
  | .memory => "memory (KV) runs out"
  | .speed => "answers get slower for everyone"

/-- SOURCE: lss-core/src/headroom.rs:121 -/
def headroomSentence (more busy cap : ℕ) (kind : CeilingKind) : String :=
  if more = 0 then
    "no room for more simultaneous users: it is already at its limit - when busy it runs " ++
      toString busy ++ " at once, and " ++ kind.what ++ " beyond " ++ toString cap
  else
    "about " ++ toString more ++ " more simultaneous user" ++ (if more = 1 then "" else "s") ++
      " before waits start: when busy it runs " ++ toString busy ++ " at once, and " ++
      kind.what ++ " at " ++ toString cap

/-- SOURCE: lss-core/src/headroom.rs:69-128 -/
def estimate (i : HeadroomInputs) : Headroom :=
  let busy := busyLevel i.live
  let ceilings := [slotsCeiling i, memoryCeiling i, speedCeiling i]
  let lowest := (ceilings.filterMap fun c => c.users.map fun u => (u, c.kind)).argmin Prod.fst
  match lowest, busy with
  | some (cap, kind), some b =>
    { moreUsers := some (cap - b)
      busyUsers := busy
      limitedBy := some kind
      sentence := headroomSentence (cap - b) b cap kind
      ceilings := ceilings }
  | some (cap, kind), none =>
    { moreUsers := some cap
      busyUsers := busy
      limitedBy := some kind
      sentence := "about " ++ toString cap ++ " simultaneous users before waits start " ++
        "(hardly any traffic yet, so all of it is free)"
      ceilings := ceilings }
  | none, _ =>
    { moreUsers := none
      busyUsers := busy
      limitedBy := none
      sentence := "not enough evidence yet for a headroom estimate"
      ceilings := ceilings }

end Lss.Model
