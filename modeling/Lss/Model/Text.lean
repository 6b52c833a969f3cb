import Lss.Model.Number
import Lss.Model.Sample

/-!
# The texts of messages

Durations, byte counts, temperatures and the names of throttle bits, as they stand in the
messages of the alert rules.
-/

set_option autoImplicit false

namespace Lss.Model

/-- Two digits with a leading zero. -/
def twoDigits (n : ℤ) : String := if n < 10 then "0" ++ toString n else toString n

/-- The text of a duration in seconds, such as 42s, 3m05s, 1h02m and 2d03h.
SOURCE: lss-core/src/timeutil.rs:20-31 -/
def fmtDuration (secs : ℤ) : String :=
  let s := max secs 0
  if 86400 ≤ s then toString (s / 86400) ++ "d" ++ twoDigits (s % 86400 / 3600) ++ "h"
  else if 3600 ≤ s then toString (s / 3600) ++ "h" ++ twoDigits (s % 3600 / 60) ++ "m"
  else if 60 ≤ s then toString (s / 60) ++ "m" ++ twoDigits (s % 60) ++ "s"
  else toString s ++ "s"

/-- Bytes in megabytes or gigabytes, the unit chosen from the rounded value.
SOURCE: lss-core/src/rules.rs:96-109 -/
def gb (bytes : ℕ) : String :=
  let mb := (bytes + 500000) / 1000000
  let tenths := (bytes + 50000000) / 100000000
  if mb < 1000 then toString mb ++ " MB"
  else if tenths < 100 then toString (tenths / 10) ++ "." ++ toString (tenths % 10) ++ " GB"
  else toString ((bytes + 500000000) / 1000000000) ++ " GB"

/-- The units temperatures are printed in.
SOURCE: lss-core/src/units.rs:8-13 -/
inductive TempUnits where
  | both
  | c
  | f
deriving DecidableEq

/-- What the texts depend on beside their arguments: the configured temperature units and the
calendar. -/
structure Env where
  tempUnits : TempUnits
  /-- the time of day of a timestamp, in UTC -/
  fmtUtc : ℤ → String

section Numbers

variable {F : Type} [F64 F]

/-- SOURCE: lss-core/src/units.rs:49-51 -/
def cToF (c : F) : F := c * F64.lit 9 / F64.lit 5 + F64.lit 32

/-- A temperature in the configured units.
SOURCE: lss-core/src/units.rs:70-87 -/
def temp (env : Env) (c : F) : String :=
  let f := cToF c
  match env.tempUnits with
  | .both => F64.fixed 0 c ++ "°C / " ++ F64.fixed 0 f ++ "°F"
  | .c => F64.fixed 0 c ++ "°C"
  | .f => F64.fixed 0 f ++ "°F"

end Numbers

/-- The names of the throttle bits that are set.
SOURCE: lss-core/src/gpu.rs:115-129 -/
def throttleFlags (mask : ℕ) : List String :=
  ([(throttleHwThermal, "hw_thermal"), (throttleSwThermal, "sw_thermal"),
    (throttleHwSlowdown, "hw_slowdown"), (throttleHwPowerBrake, "hw_power_brake"),
    (throttleSwPowerCap, "sw_power_cap")].filter fun p => mask &&& p.1 != 0).map Prod.snd

/-- A kernel report of a GPU fault.
SOURCE: lss-core/src/xid.rs:8-17 -/
structure XidEvent where
  ts : ℤ
  pci : String
  xid : ℕ
  gpu : Option ℕ
  detail : String
deriving DecidableEq

/-- SOURCE: lss-core/src/xid.rs:20-25 -/
def XidEvent.gpuLabel (x : XidEvent) : String :=
  match x.gpu with
  | some i => "GPU" ++ toString i
  | none => "PCI " ++ x.pci

/-- SOURCE: lss-core/src/xid.rs:45-62 -/
def xidHint (xid : ℕ) : String :=
  match xid with
  | 8 => "GPU stopped processing (hang / watchdog)"
  | 13 => "graphics engine exception"
  | 31 => "GPU memory page fault"
  | 43 => "GPU stopped processing"
  | 45 => "preemptive cleanup, channel torn down"
  | 48 => "double-bit ECC error"
  | 61 | 62 => "internal micro-controller halt"
  | 63 | 64 => "ECC page retirement / row remap"
  | 74 => "NVLink error"
  | 79 => "GPU has fallen off the bus"
  | 94 | 95 => "contained / uncontained ECC error"
  | 119 | 120 => "GSP RPC timeout / GSP error"
  | 154 => "GPU recovery action changed (reset / reboot required)"
  | _ => "see NVIDIA Xid catalogue"

end Lss.Model
