import Mathlib.Data.List.Sort
import Mathlib.Data.String.Basic
import Lss.Model.Doubles

/-!
# Readings and the headline

Every reading of the page is one record, scored on one scale from nothing to one: only a source
that is down scores one. The readings are ranked, worst first, and the worst that is more than a
fact about the setup leads, unless the one that led last time is no more than a little behind it.
-/

set_option autoImplicit false

namespace Lss.Model.Readings

/-! ## Scores -/

/-- Below this a reading is fine.
SOURCE: lss-core/src/readings.rs:21-22 -/
def low : ℚ := 34 / 100

/-- SOURCE: lss-core/src/readings.rs:24 -/
def medium : ℚ := 62 / 100

/-- SOURCE: lss-core/src/readings.rs:25 -/
def high : ℚ := 85 / 100

/-- The most a live reading can score.
SOURCE: lss-core/src/readings.rs:26-27 -/
def ceiling : ℚ := 97 / 100

/-- The score of a source that is down.
SOURCE: lss-core/src/readings.rs:28-29 -/
def offlineScore : ℚ := 1

/-- By how much a challenger must beat the headline.
SOURCE: lss-core/src/readings.rs:30-32 -/
def hysteresis : ℚ := 8 / 100

def isNan : Ieee → Bool
  | .nan _ => true
  | _ => false

/-- The lesser of two numbers; what is no number is not taken. -/
def least (a b : Ieee) : Ieee :=
  if isNan a then b else if isNan b then a else if a.le b then a else b

/-- SOURCE: lss-core/src/readings.rs:167-173 -/
def clamp01 (x : Ieee) : Ieee :=
  if isNan x then .finite 0
  else if F64.lt x (.finite 0) then .finite 0
  else if F64.lt (.finite 1) x then .finite 1
  else x

/-- 0 at `at_`, 1 at `full`, linear between and clamped outside, in either direction.
SOURCE: lss-core/src/readings.rs:175-186 -/
def ramp (value at_ full : Ieee) : Ieee :=
  if isNan value then .finite 0
  else if at_.same full then if full.le value then .finite 1 else .finite 0
  else clamp01 ((value - at_) / (full - at_))

/-- A score counts only when a second source confirms it.
SOURCE: lss-core/src/readings.rs:188-197 -/
def corroborate (score : Ieee) (confirmed : Bool) : Ieee := if confirmed then score else .finite 0

/-! ## Readings -/

/-- Why a reading has a value, or lacks it.
SOURCE: lss-core/src/readings.rs:34-45 -/
inductive ReadingState where
  | live
  | noData (reason : String)
  | offline (reason : String)
deriving DecidableEq

/-- SOURCE: lss-core/src/readings.rs:47-64 -/
structure Reading where
  key : String
  label : String
  value : Option String
  detail : String
  severity : Ieee
  informational : Bool := false
  state : ReadingState
deriving DecidableEq

namespace Reading

/-- SOURCE: lss-core/src/readings.rs:67-78 -/
def live (key label value detail : String) (score : Ieee) : Reading where
  key := key
  label := label
  value := some value
  detail := detail
  severity := least (clamp01 score) (.finite ceiling)
  state := .live

/-- SOURCE: lss-core/src/readings.rs:80-92 -/
def noData (key label reason : String) : Reading where
  key := key
  label := label
  value := none
  detail := reason
  severity := .finite 0
  state := .noData reason

/-- SOURCE: lss-core/src/readings.rs:94-106 -/
def offline (key label reason : String) : Reading where
  key := key
  label := label
  value := none
  detail := reason
  severity := .finite offlineScore
  state := .offline reason

/-- A fact about the setup: it shows and sorts, and never leads.
SOURCE: lss-core/src/readings.rs:108-112 -/
def asInformational (r : Reading) : Reading := { r with informational := true }

def isOffline (r : Reading) : Bool :=
  match r.state with
  | .offline _ => true
  | _ => false

/-- Whether a reading is one the headline may name.
SOURCE: lss-core/src/readings.rs:216-217 -/
def mayLead (r : Reading) : Bool := !r.informational && (Ieee.finite low).le r.severity

end Reading

/-- Worst first, equally bad ones by their keys.
SOURCE: lss-core/src/readings.rs:203 -/
def Worse (a b : Reading) : Prop :=
  b.severity.totalLe a.severity ∧ (a.severity.totalLe b.severity → a.key ≤ b.key)

instance : DecidableRel Worse := fun _ _ => inferInstanceAs (Decidable (_ ∧ _))

/-- SOURCE: lss-core/src/readings.rs:199-205 -/
def rank (all : List Reading) : List Reading := all.insertionSort Worse

/-- The worst reading of a group that is more than a fact about the setup.
SOURCE: lss-core/src/readings.rs:207-210 -/
def worstOf (all : List Reading) : Option Reading := (rank all).find? fun r => !r.informational

/-- The headline; `incumbent` is the key that led last time.
SOURCE: lss-core/src/readings.rs:212-233 -/
def leading (all : List Reading) (incumbent : Option String) : Option Reading :=
  match (worstOf all).filter fun r => (Ieee.finite low).le r.severity with
  | none => none
  | some best =>
    match incumbent.bind fun k => all.find? fun r => decide (r.key = k) && r.mayLead with
    | none => some best
    | some inc =>
      if inc.key = best.key then some inc
      else if best.isOffline && !inc.isOffline then some best
      else if (inc.severity + .finite hysteresis).le best.severity then some best
      else some inc

end Lss.Model.Readings
